import OpenWrtCopilot.Ports.MarkdownOffsets
import OpenWrtCopilot.Verified.PyWordwise
import Mathlib.Data.List.TakeDrop

/-!
# Code blocks and words in Markdown

The parser makes fences into blank lines and keeps no record of being between two of them: the
lines of a code block are read like all others, and the substitutions go over the whole text.
Each character of the text that they go over has its position with it, so that what is left of a
line or of a word can be told from other characters that look the same.

## Main results

* `Bounded.left_iff` — when the substitutions leave a part of the text with its neighbours.
* `words_finalLine_placed` — the words of a line are normalised separately.
* `keepsLine_iff`, `keepsWord_iff` — when a line of a code block, and a word, stays.
* `fences_faithful_iff` — when the lines of code blocks and the words of the other lines stand in the
  document as they are written.
* `code_read_as_prose` — a comment in a code block that is taken for a heading.
-/

namespace OpenWrtCopilot.Ports.MarkdownFences

open Verified
open Verified.PySub
open Verified.PyText
open Ports.KnowledgeText
open Ports.MarkdownParser

/-! ## Lines -/

/-- `_FENCE_RE.match`. -/
def isFence (line : Text) : Bool := startsWith "```".toList (lstrip line)

inductive Role
  | fence
  | code
  | ordinary
  deriving DecidableEq

/-- Fences open a block and close it, in turn. -/
def roles : Bool → List Text → List Role
  | _, [] => []
  | inside, line :: rest =>
      if isFence line then .fence :: roles (!inside) rest
      else (if inside then .code else .ordinary) :: roles inside rest

/-- The lines of the document. -/
def linesOf (text : Text) : List Text := splitlines (body text)

/-- What stands for a line. -/
def shown (line : Text) : Text := (readLine line).2

/-- The line with this number has this role. -/
structure LineAt (text : Text) (role : Role) (i : Nat) (line : Text) : Prop where
  line : (linesOf text)[i]? = some line
  role : (roles false (linesOf text))[i]? = some role

/-! ## Characters with their positions -/

abbrev Placed := Char × Nat

/-- The text that the substitutions go over. -/
def source (text : Text) : Text := join ['\n'] ((linesOf text).map shown)

def placed (text : Text) : List Placed := (source text).zipIdx

/-- What the images leave. -/
def imageless (text : Text) : List Placed := sub (linkAt Prod.fst "![".toList) 0 (placed text)

/-- What images and links leave. -/
def linkless (text : Text) : List Placed := sub (linkAt Prod.fst "[".toList) 0 (imageless text)

/-- What is left by all of the substitutions. -/
def survivors (text : Text) : List Placed := stripMarkup Prod.fst (placed text)

/-- Where what stands for a line starts. -/
def start (text : Text) (i : Nat) : Nat :=
  (((linesOf text).take i).map fun line => (shown line).length + 1).sum

/-- The characters from a position to another. -/
def span (text : Text) (lo hi : Nat) : List Placed := ((placed text).take hi).drop lo

/-! ## The document -/

/-- Lines as `normalize_text` leaves them. -/
def settle (nfc : NormalForm) (lines : List (List Placed × Text)) : List (List Placed × Text) :=
  tidy Prod.snd (lines.map fun line => (line.1, cleanLine nfc line.2))

/-- The lines that the substitutions leave, each with its text. -/
def mergedLines (text : Text) : List (List Placed × Text) :=
  ((survivors text).splitOnP (·.1 == '\n')).map fun line => (line, line.map Prod.fst)

/-- The lines of the document, with the characters that they were made of; its text is
normalised twice. -/
def documentLines (nfc : NormalForm) (text : Text) : List (List Placed × Text) :=
  settle nfc (settle nfc (mergedLines text))

/-- A line as it is in the document. -/
def finalLine (nfc : NormalForm) (t : Text) : Text := cleanLine nfc (cleanLine nfc t)

/-! ## Words -/

/-- A space that is no control character: these are removed, and separate nothing. -/
def isGap (c : Char) : Bool := isSpace c && !isControl c

/-- NFC, in which a space stays a space, combines with nothing, and comes from nothing else. -/
structure SpacedForm extends NormalForm where
  gap : ∀ a c b, isGap c = true → ∃ d, isGap d = true ∧ line (a ++ c :: b) = line a ++ d :: line b
  solid : ∀ a, (∀ c ∈ a, isGap c = false) → ∀ c ∈ line a, isGap c = false

/-- The word stands between these parts of a line. -/
structure WordAt (line before word after : Text) : Prop where
  line : line = before ++ word ++ after
  word : word ≠ [] ∧ ∀ c ∈ word, isGap c = false
  left : ∀ c ∈ before.getLast?, isGap c = true
  right : ∀ c ∈ after.head?, isGap c = true

/-- The characters of Markdown's markup. -/
def delimiters : List Char := ['*', '_', '\x60', '~', '[', ']', '(', ')', '!', '#']

/-- The word has no markup. -/
def isPlain (word : Text) : Bool := word.all (· ∉ delimiters)

/-! ## What is to be kept -/

def nonSpace (t : Text) : Text := t.filter (!isSpace ·)

/-- The line is no heading, stands between its own line breaks, and has its own characters. -/
structure KeepsLine (nfc : NormalForm) (text : Text) (i : Nat) (line : Text) : Prop where
  heading : (readLine line).1 = none
  between : span text (start text i - 1) (start text i + line.length + 1) <:+: survivors text
  there : ∃ entry ∈ documentLines nfc text,
    entry.1 = line.zipIdx (start text i) ∧ nonSpace entry.2 = nonSpace line

/-- The word stands between its own neighbours, and as a word of its own between the words before
and after it. -/
structure KeepsWord (nfc : NormalForm) (text : Text) (i : Nat) (before word : Text) : Prop where
  between : span text (start text i + before.length - 1)
    (start text i + before.length + word.length + 1) <:+: survivors text
  there : ∃ entry ∈ documentLines nfc text, ∃ a b,
    entry.1 = a ++ word.zipIdx (start text i + before.length) ++ b ∧
    (∀ c ∈ a.getLast?, isGap c.1 = true) ∧ (∀ c ∈ b.head?, isGap c.1 = true) ∧
    words entry.2 = words (finalLine nfc (a.map Prod.fst)) ++
      word :: words (finalLine nfc (b.map Prod.fst))

/-- The lines of code blocks stand in the document as they are, and so do the words without
markup of the other lines. -/
structure Faithful (nfc : NormalForm) (text : Text) (document : KnowledgeDocument) : Prop where
  lines : document.text = join ['\n'] ((documentLines nfc text).map Prod.snd)
  headings : document.headings.map (fun heading => (heading.text, heading.level)) =
    ((linesOf text).filterMap fun line => (readLine line).1).map
      fun heading => (heading.text, heading.level)
  code : ∀ i line, LineAt text .code i line → strip line ≠ [] → KeepsLine nfc text i line
  prose : ∀ i line, LineAt text .ordinary i line →
    ((words line).filter isPlain).Sublist (words (shown line))
  plain : ∀ i line, LineAt text .ordinary i line → ∀ before word after,
    WordAt (shown line) before word after → isPlain word = true →
      KeepsWord nfc text i before word

/-! ## When it is kept -/

/-- A token of `_EMPHASIS_RE` is in the text. -/
def hasToken (t : Text) : Bool :=
  t.any (['*', '_', '\x60'].contains ·) || decide ("~~".toList <:+: t)

/-- No image and no link has these characters in its brackets and parentheses, or in its
target. -/
def Unlinked (text : Text) (lo hi : Nat) : Prop :=
  ∀ e ∈ span text lo hi, e ∉ dropped (linkAt Prod.fst "![".toList) 0 (placed text) ∧
    e ∉ dropped (linkAt Prod.fst "[".toList) 0 (imageless text)

structure SafeLine (nfc : NormalForm) (text : Text) (i : Nat) (line : Text) : Prop where
  heading : headingMatch line = none
  tokens : hasToken line = false
  links : Unlinked text (start text i - 1) (start text i + line.length + 1)
  normal : nonSpace (finalLine nfc line) = nonSpace line

structure SafeWord (nfc : NormalForm) (text : Text) (i : Nat) (before word : Text) : Prop where
  links : Unlinked text (start text i + before.length - 1)
    (start text i + before.length + word.length + 1)
  normal : finalLine nfc word = word

structure Safe (nfc : NormalForm) (text : Text) : Prop where
  code : ∀ i line, LineAt text .code i line → strip line ≠ [] → SafeLine nfc text i line
  plain : ∀ i line, LineAt text .ordinary i line → ∀ before word after,
    WordAt (shown line) before word after → isPlain word = true →
      SafeWord nfc text i before word

/-! ## What the substitutions drop -/

section Markup

variable {char : Placed → Char}

theorem advancing_linkAt (opening : Text) : Advancing (linkAt char opening) := by
  intro l m h
  rw [linkAt] at h
  split at h
  · dsimp only at h
    split at h
    · split at h
      · obtain rfl := Option.some.inj h
        exact ⟨_, rfl⟩
      · cases h
    · cases h
  · cases h

theorem advancing_emphasisAt : Advancing (emphasisAt char) := by
  intro l m h
  rw [emphasisAt] at h
  split at h
  · obtain rfl := Option.some.inj h
    exact ⟨1, rfl⟩
  · split at h
    · obtain rfl := Option.some.inj h
      exact ⟨0, rfl⟩
    · cases h

end Markup

/-- A character of a token. -/
def isMark (c : Char) : Bool := ['*', '_', '\x60', '~'].contains c

/-- A match is found in one or two characters. -/
theorem emphasisAt_cons (e : Placed) (rest : List Placed) :
    emphasisAt Prod.fst (e :: rest) =
      if e.1 = '~' ∧ (rest.map Prod.fst).head? = some '~' then some ([], 2)
      else if ['*', '_', '\x60'].contains e.1 = true then some ([], 1) else none := by
  have htilde : startsWith "~~".toList ((e :: rest).map Prod.fst) = true ↔
      e.1 = '~' ∧ (rest.map Prod.fst).head? = some '~' := by
    rw [show "~~".toList = ['~', '~'] from rfl, PySub.startsWith_iff, List.map_cons,
      List.cons_prefix_cons, eq_comm]
    cases rest with
    | nil => simp
    | cons f rest => simp [eq_comm]
  rw [emphasisAt]
  simp only [htilde]
  rfl

theorem emphasisAt_of_not_isMark {e : Placed} (he : isMark e.1 = false) (rest : List Placed) :
    emphasisAt Prod.fst (e :: rest) = none := by
  simp only [isMark, List.contains_cons, List.contains_nil, Bool.or_eq_false_iff,
    beq_eq_false_iff_ne] at he
  obtain ⟨hstar, hline, htick, htilde, -⟩ := he
  rw [emphasisAt_cons, if_neg fun h => htilde h.1]
  simp [hstar, hline, htick]

theorem dropped_emphasis_cons (x : Placed) (rest : List Placed) :
    dropped (emphasisAt Prod.fst) 0 (x :: rest) =
      if x.1 = '~' ∧ (rest.map Prod.fst).head? = some '~' then
        x :: rest.take 1 ++ dropped (emphasisAt Prod.fst) 1 rest
      else if ['*', '_', '\x60'].contains x.1 = true then
        x :: dropped (emphasisAt Prod.fst) 0 rest
      else dropped (emphasisAt Prod.fst) 0 rest := by
  have hmatch := emphasisAt_cons x rest
  split
  · next htilde =>
      rw [if_pos htilde] at hmatch
      exact dropped_of_nil hmatch
  · next htilde =>
      rw [if_neg htilde] at hmatch
      split
      · next hmark =>
          rw [if_pos hmark] at hmatch
          exact dropped_of_nil hmatch
      · next hmark =>
          rw [if_neg hmark] at hmatch
          exact dropped_of_none hmatch

theorem dropped_emphasis_of_not_isMark {e : Placed} (he : isMark e.1 = false)
    (rest : List Placed) :
    dropped (emphasisAt Prod.fst) 0 (e :: rest) = dropped (emphasisAt Prod.fst) 0 rest :=
  dropped_of_none (emphasisAt_of_not_isMark he rest)

theorem isMark_of_mem_dropped {l : List Placed} {skip : Nat} {e : Placed}
    (h : e ∈ dropped (emphasisAt Prod.fst) skip l) : isMark e.1 = true := by
  induction l generalizing skip with
  | nil => cases skip <;> cases h
  | cons x rest ih =>
    cases skip with
    | succ skip => exact ih h
    | zero =>
      cases hx : isMark x.1 with
      | false => exact ih (dropped_emphasis_of_not_isMark hx rest ▸ h)
      | true =>
        rw [dropped_emphasis_cons] at h
        split at h
        · next htilde =>
            obtain hmatch | h := List.mem_append.mp h
            · obtain rfl | hnext := List.mem_cons.mp hmatch
              · exact hx
              · cases rest with
                | nil => cases hnext
                | cons y rest =>
                  rw [List.mem_singleton.mp hnext, Option.some.inj htilde.2]
                  rfl
            · exact ih h
        · split at h
          · obtain rfl | h := List.mem_cons.mp h
            · exact hx
            · exact ih h
          · exact ih h

/-- What is dropped before a character that is in no token has nothing to do with what follows. -/
theorem dropped_emphasis_append_cons {e : Placed} (he : isMark e.1 = false) {skip : Nat}
    {u : List Placed} (hskip : skip ≤ u.length) (v : List Placed) :
    dropped (emphasisAt Prod.fst) skip (u ++ e :: v) =
      dropped (emphasisAt Prod.fst) skip u ++ dropped (emphasisAt Prod.fst) 0 v := by
  induction u generalizing skip with
  | nil =>
    obtain rfl := Nat.le_zero.mp hskip
    exact dropped_emphasis_of_not_isMark he v
  | cons x u ih =>
    cases skip with
    | succ skip => exact ih (Nat.le_of_succ_le_succ hskip)
    | zero =>
      have hhead : x.1 = '~' ∧ ((u ++ e :: v).map Prod.fst).head? = some '~' ↔
          x.1 = '~' ∧ (u.map Prod.fst).head? = some '~' := by
        cases u with
        | nil =>
          have hne : e.1 ≠ '~' := fun heq => by
            rw [heq] at he
            exact absurd he (by decide)
          simp [hne]
        | cons y u => rfl
      rw [List.cons_append, dropped_emphasis_cons, dropped_emphasis_cons]
      by_cases htilde : x.1 = '~' ∧ (u.map Prod.fst).head? = some '~'
      · have hlength : 1 ≤ u.length := by
          cases u with
          | nil => cases htilde.2
          | cons y u => exact Nat.succ_le_succ (Nat.zero_le _)
        rw [if_pos (hhead.mpr htilde), if_pos htilde, ih hlength,
          List.take_append_of_le_length hlength]
        exact (List.append_assoc _ _ _).symm
      · rw [if_neg fun h => htilde (hhead.mp h), if_neg htilde, ih (Nat.zero_le _)]
        split
        · rfl
        · rfl

theorem dropped_emphasis_append_left {u : List Placed}
    (hu : ∀ e ∈ u.getLast?, isMark e.1 = false) (v : List Placed) :
    dropped (emphasisAt Prod.fst) 0 (u ++ v) =
      dropped (emphasisAt Prod.fst) 0 u ++ dropped (emphasisAt Prod.fst) 0 v := by
  induction u using List.reverseRecOn with
  | nil => rfl
  | append_singleton u e _ =>
    have he : isMark e.1 = false := hu e (by rw [List.getLast?_concat]; rfl)
    rw [List.append_assoc, List.singleton_append,
      dropped_emphasis_append_cons he (Nat.zero_le _),
      dropped_emphasis_append_cons he (Nat.zero_le _) []]
    exact congrArg (· ++ _) (List.append_nil _).symm

theorem dropped_emphasis_append_right {v : List Placed}
    (hv : ∀ e ∈ v.head?, isMark e.1 = false) (u : List Placed) :
    dropped (emphasisAt Prod.fst) 0 (u ++ v) =
      dropped (emphasisAt Prod.fst) 0 u ++ dropped (emphasisAt Prod.fst) 0 v := by
  cases v with
  | nil =>
    rw [List.append_nil]
    exact (List.append_nil _).symm
  | cons e v =>
    have he : isMark e.1 = false := hv e rfl
    rw [dropped_emphasis_append_cons he (Nat.zero_le _), dropped_emphasis_of_not_isMark he]

theorem hasToken_cons (c : Char) (t : Text) :
    hasToken (c :: t) = true ↔
      (c = '~' ∧ t.head? = some '~') ∨ ['*', '_', '\x60'].contains c = true ∨
        hasToken t = true := by
  have hpair : "~~".toList <+: c :: t ↔ c = '~' ∧ t.head? = some '~' := by
    rw [show "~~".toList = ['~', '~'] from rfl, List.cons_prefix_cons, eq_comm]
    cases t with
    | nil => simp
    | cons d t => simp [eq_comm]
  rw [hasToken, hasToken, Bool.or_eq_true, Bool.or_eq_true, List.any_cons, Bool.or_eq_true,
    decide_eq_true_eq, decide_eq_true_eq, List.infix_cons_iff, hpair]
  tauto

/-- Nothing is dropped exactly if there is no token. -/
theorem dropped_emphasis_eq_nil_iff (l : List Placed) :
    dropped (emphasisAt Prod.fst) 0 l = [] ↔ hasToken (l.map Prod.fst) = false := by
  induction l with
  | nil => exact ⟨fun _ => rfl, fun _ => rfl⟩
  | cons x rest ih =>
    rw [dropped_emphasis_cons, ← Bool.not_eq_true, List.map_cons, hasToken_cons]
    by_cases htilde : x.1 = '~' ∧ (rest.map Prod.fst).head? = some '~'
    · rw [if_pos htilde]
      exact iff_of_false (List.cons_ne_nil _ _) fun h => h (Or.inl htilde)
    · rw [if_neg htilde]
      by_cases hmark : ['*', '_', '\x60'].contains x.1 = true
      · rw [if_pos hmark]
        exact iff_of_false (List.cons_ne_nil _ _) fun h => h (Or.inr (Or.inl hmark))
      · rw [if_neg hmark, ih, ← Bool.not_eq_true]
        exact ⟨fun h hany => h ((hany.resolve_left htilde).resolve_left hmark),
          fun h hany => h (Or.inr (Or.inr hany))⟩

/-! ## Where lines stand -/

/-- A line that is joined with others has line breaks around it. -/
theorem exists_join_eq {lines : List Text} {i : Nat} {line : Text} (h : lines[i]? = some line) :
    ∃ opening closing, join ['\n'] lines = opening ++ line ++ closing ∧
      opening.length = ((lines.take i).map fun before => before.length + 1).sum ∧
      (∀ c ∈ opening.getLast?, c = '\n') ∧ ∀ c ∈ closing.head?, c = '\n' := by
  induction lines generalizing i with
  | nil => cases h
  | cons first rest ih =>
    cases i with
    | zero =>
      obtain rfl := Option.some.inj h
      by_cases hrest : rest = []
      · refine ⟨[], [], ?_, rfl, fun c hc => (nomatch hc), fun c hc => nomatch hc⟩
        rw [hrest, join_singleton, List.nil_append, List.append_nil]
      · refine ⟨[], '\n' :: join ['\n'] rest, ?_, rfl, fun c hc => (nomatch hc), fun c hc => ?_⟩
        · rw [join_cons_of_ne_nil _ _ hrest, List.append_assoc, List.nil_append,
            List.singleton_append]
        · exact (Option.some.inj hc).symm
    | succ i =>
      obtain ⟨opening, closing, hjoin, hlength, hlast, hhead⟩ := ih h
      have hrest : rest ≠ [] := by
        rintro rfl
        cases h
      refine ⟨first ++ '\n' :: opening, closing, ?_, ?_, fun c hc => ?_, hhead⟩
      · rw [join_cons_of_ne_nil _ _ hrest, hjoin]
        simp only [List.append_assoc, List.cons_append, List.nil_append]
      · rw [List.take_succ_cons, List.map_cons, List.sum_cons, ← hlength, List.length_append,
          List.length_cons]
        omega
      · rw [List.getLast?_append, List.getLast?_cons] at hc
        cases hopening : opening.getLast? with
        | none =>
          rw [hopening] at hc
          exact (Option.some.inj hc).symm
        | some d =>
          rw [hopening] at hc
          obtain rfl := Option.some.inj hc
          exact hlast d hopening

section Place

variable {text before part after : Text}

theorem placed_append (h : source text = before ++ part ++ after) :
    placed text = before.zipIdx ++ part.zipIdx before.length ++
      after.zipIdx (before.length + part.length) := by
  rw [placed, h, List.zipIdx_append, List.zipIdx_append, Nat.zero_add, List.length_append,
    Nat.zero_add]

/-- A part of the text with the characters next to it. -/
theorem span_eq (h : source text = before ++ part ++ after) :
    span text (before.length - 1) (before.length + part.length + 1) =
      before.zipIdx.drop (before.length - 1) ++ part.zipIdx before.length ++
        (after.zipIdx (before.length + part.length)).take 1 := by
  have hlength : (before.zipIdx ++ part.zipIdx before.length).length =
      before.length + part.length := by
    rw [List.length_append, List.length_zipIdx, List.length_zipIdx]
  rw [span, placed_append h, ← hlength, List.take_length_add_append, List.append_assoc,
    List.drop_append_of_le_length (by rw [List.length_zipIdx]; omega), List.append_assoc]

/-- What is before the part with the characters next to it, and what is after it. -/
theorem placed_eq (h : source text = before ++ part ++ after) :
    placed text = before.zipIdx.take (before.length - 1) ++
      span text (before.length - 1) (before.length + part.length + 1) ++
      (after.zipIdx (before.length + part.length)).drop 1 := by
  rw [span_eq h, placed_append h]
  conv_lhs =>
    rw [← List.take_append_drop (before.length - 1) before.zipIdx,
      ← List.take_append_drop 1 (after.zipIdx (before.length + part.length))]
  simp only [List.append_assoc]

theorem nodup_placed (text : Text) : (placed text).Nodup :=
  List.Nodup.of_map Prod.snd (List.zipIdx_map_snd 0 (source text) ▸ List.nodup_range')

theorem imageless_sublist (text : Text) : (imageless text).Sublist (placed text) :=
  PySub.sub_sublist (shrinking_linkAt _) 0 _

theorem linkless_sublist (text : Text) : (linkless text).Sublist (placed text) :=
  (PySub.sub_sublist (shrinking_linkAt _) 0 _).trans (imageless_sublist text)

theorem mem_linkless_iff {text : Text} {e : Placed} :
    e ∈ linkless text ↔ e ∈ placed text ∧
      e ∉ dropped (linkAt Prod.fst "![".toList) 0 (placed text) ∧
      e ∉ dropped (linkAt Prod.fst "[".toList) 0 (imageless text) := by
  rw [linkless, PySub.mem_sub_iff (shrinking_linkAt _) (advancing_linkAt _)
    ((nodup_placed text).sublist (imageless_sublist text)), List.drop_zero, imageless,
    PySub.mem_sub_iff (shrinking_linkAt _) (advancing_linkAt _) (nodup_placed text),
    List.drop_zero, and_assoc]

theorem mem_survivors_iff {text : Text} {e : Placed} :
    e ∈ survivors text ↔
      e ∈ linkless text ∧ e ∉ dropped (emphasisAt Prod.fst) 0 (linkless text) :=
  PySub.mem_sub_iff shrinking_emphasisAt advancing_emphasisAt
    ((nodup_placed text).sublist (linkless_sublist text))

/-- No link has the characters exactly if the links leave them. -/
theorem unlinked_iff {lo hi : Nat} : Unlinked text lo hi ↔ span text lo hi ⊆ linkless text := by
  have hplaced : span text lo hi ⊆ placed text :=
    List.Subset.trans (List.drop_subset _ _) (List.take_subset _ _)
  constructor
  · intro h e he
    exact mem_linkless_iff.mpr ⟨hplaced he, h e he⟩
  · intro h e he
    exact (mem_linkless_iff.mp (h he)).2

/-- A part is left with its neighbours exactly if each of these characters is left. -/
theorem exists_of_subset {l : List Placed} (hl : l.Sublist (placed text))
    (h : source text = before ++ part ++ after)
    (hsubset : span text (before.length - 1) (before.length + part.length + 1) ⊆ l) :
    ∃ u v, l = u ++ part.zipIdx before.length ++ v ∧
      u.getLast? = before.zipIdx.getLast? ∧
      v.head? = (after.zipIdx (before.length + part.length)).head? ∧
      span text (before.length - 1) (before.length + part.length + 1) <:+: l := by
  have hnodup := nodup_placed text
  rw [placed_eq h] at hl hnodup
  obtain ⟨b, a, hparts, hb, ha⟩ := PySub.exists_append_of_sublist hnodup hl hsubset
  refine ⟨b ++ before.zipIdx.drop (before.length - 1),
    (after.zipIdx (before.length + part.length)).take 1 ++ a, ?_, ?_, ?_, ⟨b, a, hparts.symm⟩⟩
  · rw [hparts, span_eq h]
    simp only [List.append_assoc]
  · by_cases hbefore : before = []
    · rw [hbefore] at hb ⊢
      rw [List.sublist_nil.mp hb]
      rfl
    · have hlength := List.length_pos_iff.mpr hbefore
      rw [List.getLast?_append, List.getLast?_drop, List.length_zipIdx, if_neg (by omega),
        List.getLast?_eq_some_getLast (by simpa using hbefore)]
      rfl
  · by_cases hafter : after = []
    · rw [hafter] at ha ⊢
      rw [List.sublist_nil.mp ha]
      rfl
    · obtain ⟨c, rest, rfl⟩ := List.exists_cons_of_ne_nil hafter
      rfl

/-- There is no token in the characters next to the part. -/
structure Bounded (before after : Text) : Prop where
  before : ∀ c ∈ before.getLast?, isMark c = false
  after : ∀ c ∈ after.head?, isMark c = false

theorem Bounded.left (hbounds : Bounded before after) :
    ∀ e ∈ before.zipIdx.getLast?, isMark e.1 = false := by
  intro e he
  rw [List.getLast?_zipIdx] at he
  obtain ⟨c, hc, rfl⟩ := Option.map_eq_some_iff.mp he
  exact hbounds.before c hc

theorem Bounded.right (hbounds : Bounded before after) (k : Nat) :
    ∀ e ∈ (after.zipIdx k).head?, isMark e.1 = false := by
  intro e he
  rw [List.head?_zipIdx] at he
  obtain ⟨c, hc, rfl⟩ := Option.map_eq_some_iff.mp he
  exact hbounds.after c hc

/-- Emphasis drops of the part what it drops of it alone. -/
theorem Bounded.mem_dropped_iff (hbounds : Bounded before after)
    (h : source text = before ++ part ++ after)
    (hsubset : span text (before.length - 1) (before.length + part.length + 1) ⊆ linkless text)
    {e : Placed} (he : e ∈ span text (before.length - 1) (before.length + part.length + 1)) :
    e ∈ dropped (emphasisAt Prod.fst) 0 (linkless text) ↔
      e ∈ dropped (emphasisAt Prod.fst) 0 (part.zipIdx before.length) := by
  have hnodup := (nodup_placed text).sublist (linkless_sublist text)
  obtain ⟨u, v, hsplit, hlast, hhead, -⟩ := exists_of_subset (linkless_sublist text) h hsubset
  rw [hsplit] at hnodup ⊢
  rw [dropped_emphasis_append_right (hhead ▸ hbounds.right _),
    dropped_emphasis_append_left (hlast ▸ hbounds.left), List.mem_append, List.mem_append]
  obtain ⟨hfirst, -, hlater⟩ := List.nodup_append.mp hnodup
  obtain ⟨-, -, hinner⟩ := List.nodup_append.mp hfirst
  refine ⟨fun hdropped => ?_, fun hdropped => Or.inl (Or.inr hdropped)⟩
  -- only the part has marks among these characters
  have hpart : e ∈ part.zipIdx before.length := by
    have hmark : isMark e.1 = true := by
      obtain (hdropped | hdropped) | hdropped := hdropped
      · exact isMark_of_mem_dropped hdropped
      · exact isMark_of_mem_dropped hdropped
      · exact isMark_of_mem_dropped hdropped
    rw [span_eq h, List.mem_append, List.mem_append] at he
    obtain (hleft | hpart) | hright := he
    · by_cases hnil : before = []
      · rw [hnil] at hleft
        cases hleft
      · have hne : before.zipIdx ≠ [] := by simpa using hnil
        rw [← @List.length_zipIdx _ before 0, List.drop_length_sub_one hne,
          List.mem_singleton] at hleft
        have hunmarked := hbounds.left e (hleft ▸ List.getLast?_eq_some_getLast hne)
        exact absurd hmark (by simp [hunmarked])
    · exact hpart
    · cases after with
      | nil => cases hright
      | cons c after =>
        have hunmarked := hbounds.right (before.length + part.length) e
          (List.mem_singleton.mp hright ▸ rfl)
        exact absurd hmark (by simp [hunmarked])
  obtain (hdropped | hdropped) | hdropped := hdropped
  · have hu := PySub.dropped_subset advancing_emphasisAt 0 u hdropped
    exact absurd rfl (hinner e hu e hpart)
  · exact hdropped
  · have hv := PySub.dropped_subset advancing_emphasisAt 0 v hdropped
    exact absurd rfl (hlater e (List.mem_append_right u hpart) e hv)

/-- A part between characters that are in no token is left with its neighbours exactly if no link
has one of these characters and the part has no token. -/
theorem Bounded.left_iff (hbounds : Bounded before after)
    (h : source text = before ++ part ++ after) :
    span text (before.length - 1) (before.length + part.length + 1) <:+: survivors text ↔
      Unlinked text (before.length - 1) (before.length + part.length + 1) ∧
        hasToken part = false := by
  have hsurvivors : (survivors text).Sublist (placed text) := stripMarkup_sublist _
  have htoken := dropped_emphasis_eq_nil_iff (part.zipIdx before.length)
  rw [List.zipIdx_map_fst] at htoken
  rw [unlinked_iff, ← htoken]
  constructor
  · intro hinside
    have hkept : ∀ e ∈ span text (before.length - 1) (before.length + part.length + 1), _ :=
      fun e he => mem_survivors_iff.mp (hinside.subset he)
    have hsubset : span text (before.length - 1) (before.length + part.length + 1) ⊆
        linkless text := fun e he => (hkept e he).1
    refine ⟨hsubset, List.eq_nil_iff_forall_not_mem.mpr fun e he => ?_⟩
    have hpart := PySub.dropped_subset advancing_emphasisAt 0 _ he
    have hspan : e ∈ span text (before.length - 1) (before.length + part.length + 1) := by
      rw [span_eq h]
      exact List.mem_append_left _ (List.mem_append_right _ hpart)
    exact (hkept e hspan).2 ((hbounds.mem_dropped_iff h hsubset hspan).mpr he)
  · intro ⟨hsubset, hnone⟩
    have hkept : span text (before.length - 1) (before.length + part.length + 1) ⊆
        survivors text := by
      intro e he
      refine mem_survivors_iff.mpr ⟨hsubset he, fun hdropped => ?_⟩
      rw [hbounds.mem_dropped_iff h hsubset he, hnone] at hdropped
      exact List.not_mem_nil hdropped
    obtain ⟨u, v, -, -, -, hinside⟩ := exists_of_subset hsurvivors h hkept
    exact hinside

end Place

/-! ## The lines of the document -/

theorem map_survivors (text : Text) : (survivors text).map Prod.fst = merged text := by
  rw [survivors, map_stripMarkup, placed, List.zipIdx_map_fst, source, merged, readLines,
    List.map_map]
  rfl

theorem map_mergedLines (text : Text) :
    (mergedLines text).map Prod.snd = PySplit.splitOn ['\n'] (merged text) := by
  rw [PySplit.splitOn_eq_splitOnP, ← map_survivors, ← PySplit.map_splitOnP Prod.fst, mergedLines,
    List.map_map]
  rfl

section Lines

variable (nfc : NormalForm) {lines : List (List Placed × Text)}

theorem map_settle (lines : List (List Placed × Text)) :
    (settle nfc lines).map Prod.snd = tidy id ((lines.map Prod.snd).map (cleanLine nfc)) := by
  rw [settle, map_tidy, List.map_map, List.map_map]
  rfl

theorem join_settle (hlines : ∀ line ∈ lines.map Prod.snd, Unbroken line) :
    join ['\n'] ((settle nfc lines).map Prod.snd) =
      normalizeText nfc (join ['\n'] (lines.map Prod.snd)) := by
  rw [map_settle]
  by_cases hnil : lines.map Prod.snd = []
  · rw [hnil, join_nil, normalizeText_nil]
    rfl
  · rw [normalizeText_join nfc hlines hnil]

theorem unbroken_settle (hlines : ∀ line ∈ lines.map Prod.snd, Unbroken line) :
    ∀ line ∈ (settle nfc lines).map Prod.snd, Unbroken line := by
  intro line hline
  rw [map_settle] at hline
  obtain ⟨before, hbefore, rfl⟩ := List.mem_map.mp (tidy_subset id _ hline)
  exact (hlines before hbefore).cleanLine nfc

theorem mem_settle {entry : List Placed × Text} (h : entry ∈ lines)
    (hclean : cleanLine nfc entry.2 ≠ []) :
    (entry.1, cleanLine nfc entry.2) ∈ settle nfc lines :=
  mem_tidy (List.mem_map_of_mem h) hclean

end Lines

/-- The lines are those of the document. -/
theorem text_parse (nfc : NormalForm) (sha1 : Text → Text) (text reference source : Text) :
    (parse nfc sha1 text reference source).text =
      join ['\n'] ((documentLines nfc text).map Prod.snd) := by
  have hmerged : ∀ line ∈ (mergedLines text).map Prod.snd, Unbroken line := by
    rw [map_mergedLines]
    exact fun line hline => MarkdownOffsets.unbroken_merged hline
  rw [documentLines, join_settle nfc (unbroken_settle nfc hmerged), join_settle nfc hmerged,
    map_mergedLines, PySplit.join_splitOn (by decide), parse, normalizeWithOffsets]

/-! ## Words of a line -/

theorem isSpace_of_isBlank {c : Char} (h : isBlank c = true) : isSpace c = true := by
  rw [isBlank, decide_eq_true_eq] at h
  obtain rfl | rfl | rfl | rfl := h
  · decide
  · decide
  · decide
  · decide

theorem collapseBlanks_append {a : Text} (h : ∀ c ∈ a, isSpace c = false) (b : Text) :
    collapseBlanks (a ++ b) = a ++ collapseBlanks b := by
  induction a with
  | nil => rfl
  | cons c a ih =>
    obtain ⟨hc, ha⟩ := List.forall_mem_cons.mp h
    have hblank : ¬ isBlank c = true := fun hblank => by
      rw [isSpace_of_isBlank hblank] at hc
      cases hc
    rw [List.cons_append, collapseBlanks, if_neg hblank, ih ha]
    rfl

theorem head?_collapseBlanks {t : Text} (h : t.head?.any isSpace = true) :
    (collapseBlanks t).head?.any isSpace = true := by
  induction t with
  | nil => cases h
  | cons c rest ih =>
    rw [collapseBlanks]
    split
    · split
      · next hnext =>
          refine ih ?_
          cases rest with
          | nil => cases hnext
          | cons d rest => exact isSpace_of_isBlank hnext
      · rfl
    · exact h

theorem words_collapseBlanks (t : Text) : words (collapseBlanks t) = words t := by
  induction hn : t.length using Nat.strong_induction_on generalizing t with
  | _ n ih =>
    obtain hall | ⟨a, c, b, rfl, ha, hc⟩ := PyPieces.exists_first_separator isSpace t
    · have hsame := collapseBlanks_append hall []
      rw [List.append_nil] at hsame
      rw [hsame, collapseBlanks, List.append_nil]
    · have hshorter : b.length < n := by
        rw [← hn, List.length_append, List.length_cons]
        omega
      have ih := ih b.length hshorter b rfl
      have hb : words (collapseBlanks (c :: b)) = words b := by
        rw [collapseBlanks]
        split
        · split
          · exact ih
          · rw [words_cons_space (by decide), ih]
        · rw [words_cons_space hc, ih]
      have hhead := head?_collapseBlanks (t := c :: b) hc
      have hbetween : Between a (collapseBlanks (c :: b)) := by
        intro _ _ d hd
        rw [Option.mem_def.mp hd] at hhead
        exact Or.inr hhead
      have hplain : Between a (c :: b) := fun _ _ d hd => Or.inr (Option.some.inj hd ▸ hc)
      rw [collapseBlanks_append ha, words_append hbetween, hb, words_append hplain,
        words_cons_space hc]

theorem mem_collapseBlanks {t : Text} {c : Char} (h : c ∈ collapseBlanks t) : c = ' ' ∨ c ∈ t := by
  induction t with
  | nil => cases h
  | cons d rest ih =>
    rw [collapseBlanks] at h
    split at h
    · split at h
      · exact (ih h).imp_right (List.mem_cons_of_mem d)
      · obtain hc | h := List.mem_cons.mp h
        · exact Or.inl hc
        · exact (ih h).imp_right (List.mem_cons_of_mem d)
    · obtain rfl | h := List.mem_cons.mp h
      · exact Or.inr List.mem_cons_self
      · exact (ih h).imp_right (List.mem_cons_of_mem d)

/-- No character of the text is a control character. -/
def Clean (t : Text) : Prop := ∀ c ∈ t, isControl c = false

theorem Clean.words_eq {t : Text} (h : Clean t) : words t = PyPieces.pieces isGap t := by
  rw [PyPieces.words_eq_pieces]
  refine PyPieces.pieces_congr fun c hc => ?_
  rw [isGap, h c hc]
  exact (Bool.and_true _).symm

/-- What is left of a part of a line. -/
def visible (nfc : NormalForm) (t : Text) : Text := (nfc.line t).filter (!isControl ·)

theorem clean_visible (nfc : NormalForm) (t : Text) : Clean (visible nfc t) := by
  intro c hc
  simpa using (List.mem_filter.mp hc).2

theorem clean_cleanLine (nfc : NormalForm) (t : Text) : Clean (cleanLine nfc t) := by
  intro c hc
  obtain rfl | hc := mem_collapseBlanks hc
  · decide
  · exact clean_visible nfc t c (mem_of_mem_strip hc)

section Spaced

variable (nfc : SpacedForm)

theorem piecewise_visible :
    PyPieces.Piecewise isGap (visible nfc.toNormalForm) (visible nfc.toNormalForm) := by
  refine PyPieces.piecewise_of_separators ?_ ?_ ?_
  · rw [visible, nfc.line_nil]
    rfl
  · intro a c b hc
    obtain ⟨d, hd, hsplit⟩ := nfc.gap a c b hc
    have hkept : (!isControl d) = true := ((Bool.and_eq_true _ _).mp hd).2
    refine ⟨d, hd, ?_⟩
    rw [visible, hsplit, List.filter_append, List.filter_cons, if_pos hkept]
    rfl
  · intro a ha c hc
    exact nfc.solid a ha c (List.mem_of_mem_filter hc)

/-- A line is cleaned word by word. -/
theorem piecewise_cleanLine :
    PyPieces.Piecewise isGap (cleanLine nfc.toNormalForm) (visible nfc.toNormalForm) := by
  intro t
  rw [← (clean_cleanLine _ t).words_eq, cleanLine, words_collapseBlanks, words_strip]
  exact (clean_visible _ t).words_eq.trans (piecewise_visible nfc t)

theorem words_finalLine_append {a b : Text}
    (h : PyPieces.pieces isGap (a ++ b) = PyPieces.pieces isGap a ++ PyPieces.pieces isGap b) :
    words (finalLine nfc.toNormalForm (a ++ b)) =
      words (finalLine nfc.toNormalForm a) ++ words (finalLine nfc.toNormalForm b) := by
  have hnil : visible nfc.toNormalForm [] = [] := by
    rw [visible, nfc.line_nil]
    rfl
  have hfinal := (piecewise_cleanLine nfc).comp (piecewise_cleanLine nfc) hnil
  rw [finalLine, finalLine, finalLine, (clean_cleanLine _ _).words_eq,
    (clean_cleanLine _ _).words_eq, (clean_cleanLine _ _).words_eq]
  exact hfinal.append h

/-- Where there is no gap, a line is cleaned to a text without spaces. -/
theorem isSpace_of_mem_cleanLine {t : Text} (h : ∀ c ∈ t, isGap c = false) :
    ∀ c ∈ cleanLine nfc.toNormalForm t, isSpace c = false := by
  have hvisible : ∀ c ∈ visible nfc.toNormalForm t, isSpace c = false := by
    intro c hc
    have hgap := nfc.solid t h c (List.mem_of_mem_filter hc)
    rw [isGap, clean_visible _ t c hc] at hgap
    simpa using hgap
  have hstrip : ∀ c ∈ strip (visible nfc.toNormalForm t), isSpace c = false :=
    fun c hc => hvisible c (mem_of_mem_strip hc)
  have hsame := collapseBlanks_append hstrip []
  rw [List.append_nil, collapseBlanks, List.append_nil] at hsame
  intro c hc
  exact hstrip c (hsame ▸ hc)

theorem isGap_of_not_isSpace {c : Char} (h : isSpace c = false) : isGap c = false := by
  rw [isGap, h]
  rfl

/-- A word is one of the words of the line exactly if it is as it was. -/
theorem words_finalLine_eq_iff {word : Text} (hne : word ≠ [])
    (h : ∀ c ∈ word, isGap c = false) :
    words (finalLine nfc.toNormalForm word) = [word] ↔
      finalLine nfc.toNormalForm word = word := by
  have hfinal : ∀ c ∈ finalLine nfc.toNormalForm word, isSpace c = false :=
    isSpace_of_mem_cleanLine nfc fun c hc =>
      isGap_of_not_isSpace (isSpace_of_mem_cleanLine nfc h c hc)
  constructor
  · intro hwords
    by_cases hnil : finalLine nfc.toNormalForm word = []
    · rw [hnil] at hwords
      cases hwords
    · rw [words_word ⟨hnil, hfinal⟩] at hwords
      exact (List.cons.inj hwords).1
  · intro hsame
    rw [words_word ⟨by rwa [hsame], hfinal⟩, hsame]

/-- The words of a line are those before a word, what becomes of it, and those after it. -/
theorem words_finalLine_placed {a b : List Placed} (ha : ∀ e ∈ a.getLast?, isGap e.1 = true)
    (hb : ∀ e ∈ b.head?, isGap e.1 = true) (k : Nat) (word : Text) :
    words (finalLine nfc.toNormalForm ((a ++ word.zipIdx k ++ b).map Prod.fst)) =
      words (finalLine nfc.toNormalForm (a.map Prod.fst)) ++
        (words (finalLine nfc.toNormalForm word) ++
          words (finalLine nfc.toNormalForm (b.map Prod.fst))) := by
  have ha' : ∀ c ∈ (a.map Prod.fst).getLast?, isGap c = true := by
    intro c hc
    rw [List.getLast?_map] at hc
    obtain ⟨e, he, rfl⟩ := Option.map_eq_some_iff.mp hc
    exact ha e he
  have hb' : ∀ c ∈ (b.map Prod.fst).head?, isGap c = true := by
    intro c hc
    rw [List.head?_map] at hc
    obtain ⟨e, he, rfl⟩ := Option.map_eq_some_iff.mp hc
    exact hb e he
  rw [List.map_append, List.map_append, List.zipIdx_map_fst,
    words_finalLine_append nfc (PyPieces.pieces_append_right hb' _),
    words_finalLine_append nfc (PyPieces.pieces_append_left ha' _), List.append_assoc]

end Spaced

/-! ## Entries -/

section Entries

variable {nfc : NormalForm} {text : Text}

/-- The text of a line comes from its characters. -/
theorem snd_of_mem_documentLines {entry : List Placed × Text} (h : entry ∈ documentLines nfc text) :
    entry.2 = finalLine nfc (entry.1.map Prod.fst) := by
  have hsettle : ∀ lines : List (List Placed × Text), ∀ entry ∈ settle nfc lines,
      ∃ before ∈ lines, entry = (before.1, cleanLine nfc before.2) := by
    intro lines entry hentry
    obtain ⟨before, hbefore, rfl⟩ := List.mem_map.mp (tidy_subset Prod.snd _ hentry)
    exact ⟨before, hbefore, rfl⟩
  obtain ⟨second, hsecond, rfl⟩ := hsettle _ entry h
  obtain ⟨first, hfirst, rfl⟩ := hsettle _ second hsecond
  obtain ⟨part, -, rfl⟩ := List.mem_map.mp hfirst
  rfl

/-- A part between line breaks is a line of the document, if something is left of it. -/
theorem mem_documentLines {part : List Placed}
    (h : part ∈ (survivors text).splitOnP (·.1 == '\n'))
    (hfinal : finalLine nfc (part.map Prod.fst) ≠ []) :
    (part, finalLine nfc (part.map Prod.fst)) ∈ documentLines nfc text := by
  have hclean : cleanLine nfc (part.map Prod.fst) ≠ [] := by
    intro hnil
    rw [finalLine, hnil, cleanLine, nfc.line_nil] at hfinal
    exact hfinal rfl
  exact mem_settle nfc (mem_settle nfc (List.mem_map_of_mem h) hclean) hfinal

end Entries

/-! ## When a part stays -/

section Parts

variable {text before part after : Text}

/-- A part that is left stands in a line; before and after it in the line is what was next to it,
or nothing. -/
theorem exists_part (h : source text = before ++ part ++ after) (hpart : '\n' ∉ part)
    (hleft : span text (before.length - 1) (before.length + part.length + 1) <:+:
      survivors text) :
    ∃ a b, a ++ part.zipIdx before.length ++ b ∈ (survivors text).splitOnP (·.1 == '\n') ∧
      (∀ e ∈ a.getLast?, e.1 ∈ before.getLast? ∧ e.1 ≠ '\n') ∧
      ∀ e ∈ b.head?, e.1 ∈ after.head? ∧ e.1 ≠ '\n' := by
  have hsurvivors : (survivors text).Sublist (placed text) := stripMarkup_sublist _
  obtain ⟨u, v, hsplit, hlast, hhead, -⟩ := exists_of_subset hsurvivors h hleft.subset
  have hsolid : ∀ e ∈ part.zipIdx before.length, (e.1 == '\n') = false := by
    intro e he
    have hmem : e.1 ∈ part := List.zipIdx_map_fst before.length part ▸ List.mem_map_of_mem he
    exact beq_eq_false_iff_ne.mpr fun heq => hpart (heq ▸ hmem)
  obtain ⟨a, b, hmem, ha, hb⟩ := PyPieces.exists_mem_splitOnP hsolid u v
  refine ⟨a, b, hsplit ▸ hmem, fun e he => ⟨?_, ?_⟩, fun e he => ⟨?_, ?_⟩⟩
  · have hbefore := (ha e he).1
    rw [hlast, List.getLast?_zipIdx] at hbefore
    obtain ⟨c, hc, rfl⟩ := Option.map_eq_some_iff.mp hbefore
    exact hc
  · exact beq_eq_false_iff_ne.mp (ha e he).2
  · have hafter := (hb e he).1
    rw [hhead, List.head?_zipIdx] at hafter
    obtain ⟨c, hc, rfl⟩ := Option.map_eq_some_iff.mp hafter
    exact hc
  · exact beq_eq_false_iff_ne.mp (hb e he).2

end Parts

section Kept

variable {text line : Text} {i : Nat}

/-- What stands for a line has line breaks around it. -/
theorem exists_source_eq (h : (linesOf text)[i]? = some line) :
    ∃ opening closing, source text = opening ++ shown line ++ closing ∧
      opening.length = start text i ∧
      (∀ c ∈ opening.getLast?, c = '\n') ∧ ∀ c ∈ closing.head?, c = '\n' := by
  have hshown : ((linesOf text).map shown)[i]? = some (shown line) := by
    rw [List.getElem?_map, h]
    rfl
  obtain ⟨opening, closing, hjoin, hlength, hlast, hhead⟩ := exists_join_eq hshown
  refine ⟨opening, closing, hjoin, ?_, hlast, hhead⟩
  rw [hlength, start, ← List.map_take, List.map_map]
  rfl

theorem notMem_shown (h : (linesOf text)[i]? = some line) : '\n' ∉ shown line := by
  intro hmem
  have hsingle := splitlines_singleLines _ line (List.mem_of_getElem? h)
  exact absurd (hsingle '\n' (readLine_subset line hmem)) (by decide)

/-- The lines of a block are no fences. -/
theorem isFence_of_roles {lines : List Text} {inside : Bool} {role : Role}
    (hline : lines[i]? = some line) (hrole : (roles inside lines)[i]? = some role) :
    isFence line = true ↔ role = .fence := by
  induction lines generalizing i inside with
  | nil => cases hline
  | cons first rest ih =>
    rw [roles] at hrole
    cases i with
    | zero =>
      obtain rfl := Option.some.inj hline
      split at hrole
      · next hfence => exact iff_of_true hfence (Option.some.inj hrole).symm
      · next hfence =>
          refine iff_of_false hfence ?_
          rw [← Option.some.inj hrole]
          split
          · exact Role.noConfusion
          · exact Role.noConfusion
    | succ i =>
      split at hrole
      · exact ih hline hrole
      · exact ih hline hrole

theorem shown_of_none (hheading : headingMatch line = none) (hfence : isFence line = false) :
    shown line = line := by
  rw [isFence] at hfence
  rw [shown, readLine, hheading]
  dsimp only
  rw [if_neg (by rw [hfence]; decide)]

theorem heading_eq_none_iff : (readLine line).1 = none ↔ headingMatch line = none := by
  rw [readLine]
  cases headingMatch line with
  | some found => exact iff_of_false (Option.some_ne_none _) (Option.some_ne_none _)
  | none =>
    refine iff_of_true ?_ rfl
    dsimp only
    split
    · rfl
    · rfl

theorem nonSpace_ne_nil (h : strip line ≠ []) : nonSpace line ≠ [] := by
  intro hnil
  have hspaces : ∀ c ∈ line, isSpace c = true := by
    simpa [nonSpace, List.filter_eq_nil_iff] using hnil
  refine h ?_
  rw [strip, lstrip, List.dropWhile_eq_nil_iff.mpr hspaces]
  rfl

/-- A line of a code block stays exactly if it is safe. -/
theorem keepsLine_iff {nfc : NormalForm} (h : LineAt text .code i line) (hblank : strip line ≠ []) :
    KeepsLine nfc text i line ↔ SafeLine nfc text i line := by
  by_cases hheading : headingMatch line = none
  swap
  · exact iff_of_false (fun hkeeps => hheading (heading_eq_none_iff.mp hkeeps.heading))
      fun hsafe => hheading hsafe.heading
  have hfence : isFence line = false := by
    rw [← Bool.not_eq_true, isFence_of_roles h.line h.role]
    exact Role.noConfusion
  have hnewline := notMem_shown h.line
  obtain ⟨opening, closing, hsource, hlength, hlast, hhead⟩ := exists_source_eq h.line
  rw [shown_of_none hheading hfence] at hsource hnewline
  have hbounds : Bounded opening closing :=
    ⟨fun c hc => hlast c hc ▸ rfl, fun c hc => hhead c hc ▸ rfl⟩
  have hleft := hbounds.left_iff hsource
  rw [hlength] at hleft
  have hmap := List.zipIdx_map_fst (start text i) line
  constructor
  · intro hkeeps
    obtain ⟨hlinks, htoken⟩ := hleft.mp hkeeps.between
    obtain ⟨entry, hentry, hfirst, hsecond⟩ := hkeeps.there
    refine ⟨hheading, htoken, hlinks, ?_⟩
    rw [snd_of_mem_documentLines hentry, hfirst, hmap] at hsecond
    exact hsecond
  · intro hsafe
    have hbetween := hleft.mpr ⟨hsafe.links, hsafe.tokens⟩
    refine ⟨heading_eq_none_iff.mpr hheading, hbetween, ?_⟩
    rw [← hlength] at hbetween
    obtain ⟨a, b, hmem, ha, hb⟩ := exists_part hsource hnewline hbetween
    have hanil : a = [] := by
      rw [← List.getLast?_eq_none_iff]
      exact Option.eq_none_iff_forall_not_mem.mpr fun e he => (ha e he).2 (hlast _ (ha e he).1)
    have hbnil : b = [] := by
      rw [← List.head?_eq_none_iff]
      exact Option.eq_none_iff_forall_not_mem.mpr fun e he => (hb e he).2 (hhead _ (hb e he).1)
    rw [hanil, hbnil, List.nil_append, List.append_nil, hlength] at hmem
    refine ⟨_, mem_documentLines hmem ?_, rfl, ?_⟩
    · rw [hmap]
      intro hnil
      have hnormal := hsafe.normal
      rw [hnil] at hnormal
      exact nonSpace_ne_nil hblank hnormal.symm
    · rw [hmap]
      exact hsafe.normal

theorem isMark_of_isGap {c : Char} (h : isGap c = true) : isMark c = false := by
  have hspace : isSpace c = true := ((Bool.and_eq_true _ _).mp h).1
  rw [← Bool.not_eq_true]
  intro hmark
  simp only [isMark, List.contains_cons, List.contains_nil, Bool.or_eq_true, beq_iff_eq,
    Bool.false_eq_true, or_false] at hmark
  obtain rfl | rfl | rfl | rfl := hmark
  · exact absurd hspace (by decide)
  · exact absurd hspace (by decide)
  · exact absurd hspace (by decide)
  · exact absurd hspace (by decide)

/-- A word without markup has no token. -/
theorem hasToken_of_isPlain {word : Text} (h : isPlain word = true) : hasToken word = false := by
  have hplain : ∀ c ∈ word, c ∉ delimiters := by simpa [isPlain] using h
  rw [← Bool.not_eq_true, hasToken, Bool.or_eq_true, List.any_eq_true, decide_eq_true_eq]
  rintro (⟨c, hc, hmark⟩ | htilde)
  · refine hplain c hc ?_
    simp only [List.contains_cons, List.contains_nil, Bool.or_eq_true, beq_iff_eq,
      Bool.false_eq_true, or_false] at hmark
    obtain rfl | rfl | rfl := hmark
    · decide
    · decide
    · decide
  · exact hplain '~' (htilde.subset (by decide)) (by decide)

/-- A word has gaps or line breaks around it. -/
theorem WordAt.exists_place {before word after : Text}
    (hword : WordAt (shown line) before word after) (h : (linesOf text)[i]? = some line) :
    ∃ opening closing, source text = opening ++ word ++ closing ∧
      opening.length = start text i + before.length ∧
      (∀ c ∈ opening.getLast?, c = '\n' ∨ isGap c = true) ∧
      ∀ c ∈ closing.head?, c = '\n' ∨ isGap c = true := by
  obtain ⟨opening, closing, hsource, hlength, hlast, hhead⟩ := exists_source_eq h
  refine ⟨opening ++ before, after ++ closing, ?_, ?_, fun c hc => ?_, fun c hc => ?_⟩
  · rw [hsource, hword.line]
    simp only [List.append_assoc]
  · rw [List.length_append, hlength]
  · rw [List.getLast?_append] at hc
    cases hbefore : before.getLast? with
    | none =>
      rw [hbefore] at hc
      exact Or.inl (hlast c hc)
    | some d =>
      rw [hbefore] at hc
      exact Or.inr (hword.left c (hbefore ▸ hc))
  · rw [List.head?_append] at hc
    cases hafter : after.head? with
    | none =>
      rw [hafter] at hc
      exact Or.inl (hhead c hc)
    | some d =>
      rw [hafter] at hc
      exact Or.inr (hword.right c (hafter ▸ hc))

/-- A word of another line stays exactly if it is safe. -/
theorem keepsWord_iff {nfc : SpacedForm} {before word after : Text}
    (h : LineAt text .ordinary i line) (hword : WordAt (shown line) before word after)
    (hplain : isPlain word = true) :
    KeepsWord nfc.toNormalForm text i before word ↔
      SafeWord nfc.toNormalForm text i before word := by
  have hnewline : '\n' ∉ word := fun hmem => notMem_shown h.line <| by
    rw [hword.line]
    exact List.mem_append_left _ (List.mem_append_right _ hmem)
  obtain ⟨opening, closing, hsource, hlength, hlast, hhead⟩ := hword.exists_place h.line
  have hmark : ∀ c, c = '\n' ∨ isGap c = true → isMark c = false := by
    rintro c (rfl | hgap)
    · rfl
    · exact isMark_of_isGap hgap
  have hbounds : Bounded opening closing :=
    ⟨fun c hc => hmark c (hlast c hc), fun c hc => hmark c (hhead c hc)⟩
  have hleft := hbounds.left_iff hsource
  rw [hlength] at hleft
  have hsame := words_finalLine_eq_iff nfc hword.word.1 hword.word.2
  constructor
  · intro hkeeps
    obtain ⟨hlinks, -⟩ := hleft.mp hkeeps.between
    obtain ⟨entry, hentry, a, b, hfirst, ha, hb, hsplit⟩ := hkeeps.there
    refine ⟨hlinks, hsame.mp ?_⟩
    rw [snd_of_mem_documentLines hentry, hfirst, words_finalLine_placed nfc ha hb] at hsplit
    have hrest := List.append_cancel_left hsplit
    exact List.append_cancel_right (hrest.trans (List.singleton_append).symm)
  · intro hsafe
    have hbetween := hleft.mpr ⟨hsafe.links, hasToken_of_isPlain hplain⟩
    refine ⟨hbetween, ?_⟩
    rw [← hlength] at hbetween
    obtain ⟨a, b, hmem, ha, hb⟩ := exists_part hsource hnewline hbetween
    have hagap : ∀ e ∈ a.getLast?, isGap e.1 = true := fun e he =>
      (hlast e.1 (ha e he).1).resolve_left (ha e he).2
    have hbgap : ∀ e ∈ b.head?, isGap e.1 = true := fun e he =>
      (hhead e.1 (hb e he).1).resolve_left (hb e he).2
    rw [hlength] at hmem
    have hsplit := words_finalLine_placed nfc hagap hbgap (start text i + before.length) word
    rw [hsame.mpr hsafe.normal, List.singleton_append] at hsplit
    refine ⟨_, mem_documentLines hmem fun hnil => ?_, a, b, rfl, hagap, hbgap, hsplit⟩
    rw [hnil, words] at hsplit
    exact absurd hsplit (by simp)

end Kept

/-! ## Words of headings -/

theorem isPlain_of_hash {word : Text} (h : '#' ∈ word) : isPlain word = false := by
  rw [← Bool.not_eq_true, isPlain, List.all_eq_true]
  intro hall
  exact absurd (hall '#' h) (by decide)

/-- The words without markup are in the text that closing hashes follow. -/
theorem plain_words_append {t hashes : Text} (h : ∀ c ∈ hashes, c = '#') :
    ((words (t ++ hashes)).filter isPlain).Sublist (words t) := by
  by_cases hnil : hashes = []
  · rw [hnil, List.append_nil]
    exact List.filter_sublist
  -- the hashes belong to the last word
  have hparts := List.rdropWhile_append_rtakeWhile (p := (!isSpace ·)) (l := t)
  have hword : ∀ c ∈ t.rtakeWhile (!isSpace ·) ++ hashes, isSpace c = false := by
    intro c hc
    obtain hc | hc := List.mem_append.mp hc
    · simpa using List.mem_rtakeWhile_imp hc
    · rw [h c hc]
      decide
  have hspace : ∀ c ∈ (t.rdropWhile (!isSpace ·)).getLast?, isSpace c = true := by
    intro c hc
    have hne := List.ne_nil_of_mem (List.mem_of_getLast? hc)
    rw [List.getLast?_eq_some_getLast hne] at hc
    have hlast := List.rdropWhile_last_not (!isSpace ·) t hne
    rw [Option.some.inj hc] at hlast
    simpa using hlast
  generalize t.rdropWhile (!isSpace ·) = a at hparts hspace
  generalize t.rtakeWhile (!isSpace ·) = w at hparts hword
  have hbetween : ∀ b, Between a b := fun b c hc _ _ => Or.inl (hspace c hc)
  have hhash : '#' ∈ w ++ hashes := by
    obtain ⟨c, rest, rfl⟩ := List.exists_cons_of_ne_nil hnil
    rw [← h c List.mem_cons_self]
    exact List.mem_append_right w List.mem_cons_self
  rw [← hparts, List.append_assoc, words_append (hbetween _), words_append (hbetween _),
    words_word ⟨List.ne_nil_of_mem hhash, hword⟩, List.filter_append,
    List.filter_cons_of_neg (by rw [isPlain_of_hash hhash]; decide), List.filter_nil,
    List.append_nil]
  exact List.filter_sublist.trans (List.sublist_append_left _ _)

theorem plain_words_headingText (t : Text) :
    ((words t).filter isPlain).Sublist (words (headingText t)) := by
  rw [headingText]
  cases hfind : (List.range t.length).find? fun i => closesHeading (t.drop (i + 1)) with
  | none => exact List.filter_sublist
  | some i =>
    have hcloses := List.find?_some hfind
    have hspaces : ∀ c ∈ (t.drop (i + 1)).takeWhile isSpace, isSpace c = true := fun c hc =>
      List.mem_takeWhile_imp hc
    have hparts := List.takeWhile_append_dropWhile (p := isSpace) (l := t.drop (i + 1))
    have hrest := List.takeWhile_append_dropWhile (p := fun c => decide (c = '#'))
      (l := (t.drop (i + 1)).dropWhile isSpace)
    have hhashes : ∀ c ∈ ((t.drop (i + 1)).dropWhile isSpace).takeWhile fun c => decide (c = '#'),
        c = '#' := fun c hc => by simpa using List.mem_takeWhile_imp hc
    have hend : ∀ c ∈ ((t.drop (i + 1)).dropWhile isSpace).dropWhile fun c => decide (c = '#'),
        isSpace c = true := List.all_eq_true.mp hcloses
    generalize ((t.drop (i + 1)).dropWhile isSpace).takeWhile (fun c => decide (c = '#')) =
      hashes at hrest hhashes
    generalize ((t.drop (i + 1)).dropWhile isSpace).dropWhile (fun c => decide (c = '#')) =
      ending at hrest hend
    generalize (t.drop (i + 1)).takeWhile isSpace = spaces at hparts hspaces
    have ht : t = t.take (i + 1) ++ spaces ++ hashes ++ ending := by
      conv_lhs => rw [← List.take_append_drop (i + 1) t, ← hparts, ← hrest]
      simp only [List.append_assoc]
    have hwords : words t = words (t.take (i + 1) ++ spaces ++ hashes) := by
      conv_lhs => rw [ht]
      rw [words_append (between_of_spaces_right hend), words_of_spaces hend, List.append_nil]
    have hkept : words (t.take (i + 1) ++ spaces) = words (t.take (i + 1)) := by
      rw [words_append (between_of_spaces_right hspaces), words_of_spaces hspaces,
        List.append_nil]
    rw [hwords, Option.elim_some, ← hkept]
    exact plain_words_append hhashes

/-- What stands for a line has its words without markup. -/
theorem plain_words_shown {line : Text} (h : isFence line = false) :
    ((words line).filter isPlain).Sublist (words (shown line)) := by
  cases hmatch : headingMatch line with
  | none =>
    rw [shown_of_none hmatch h]
    exact List.filter_sublist
  | some found =>
    obtain ⟨level, text⟩ := found
    have hshown : shown line = text := by rw [shown, readLine, hmatch]
    have hparts := List.takeWhile_append_dropWhile (p := fun c => decide (c = '#')) (l := line)
    have hhashes : ∀ c ∈ line.takeWhile fun c => decide (c = '#'), c = '#' := fun c hc => by
      simpa using List.mem_takeWhile_imp hc
    rw [headingMatch] at hmatch
    generalize line.takeWhile (fun c => decide (c = '#')) = hashes at hparts hhashes hmatch
    generalize line.dropWhile (fun c => decide (c = '#')) = rest at hparts hmatch
    split at hmatch
    swap
    · cases hmatch
    next hlevel =>
      have hbetween : Between hashes rest := fun c _ d hd => Or.inr <| by
        have hspace := hlevel.2.2
        rw [Option.mem_def.mp hd] at hspace
        exact hspace
      have hnone := List.sublist_nil.mp (plain_words_append (t := []) hhashes)
      rw [List.nil_append] at hnone
      rw [hshown, ← hparts, words_append hbetween, List.filter_append, hnone, List.nil_append,
        ← words_lstrip rest]
      split at hmatch
      · obtain ⟨-, rfl⟩ := Prod.mk.inj (Option.some.inj hmatch)
        rw [words_strip]
        exact plain_words_headingText _
      · next hbody =>
          rw [show lstrip rest = [] from Classical.not_not.mp hbody]
          exact List.nil_sublist _
/-! ## When everything stays -/

theorem locate_kept (normalized : Text) (cursor : Nat) (hs : List HeadingRecord) :
    (locate normalized cursor hs).map (fun heading => (heading.text, heading.level)) =
      hs.map fun heading => (heading.text, heading.level) := by
  induction hs generalizing cursor with
  | nil => rfl
  | cons heading rest ih =>
    rw [locate]
    cases findFrom heading.text normalized cursor with
    | none => exact congrArg (_ :: ·) (ih _)
    | some index => exact congrArg (_ :: ·) (ih _)

/-- **The lines of code blocks and the words without markup stand in the document as they are
exactly if no line of a code block is a heading, has a token of emphasis or characters that
normalisation changes, no image or link has their characters, and no word is changed by
normalisation.** -/
theorem fences_faithful_iff (nfc : SpacedForm) (sha1 : Text → Text) (text reference source : Text) :
    Faithful nfc.toNormalForm text (parse nfc.toNormalForm sha1 text reference source) ↔
      Safe nfc.toNormalForm text := by
  constructor
  · intro h
    exact ⟨fun i line hline hblank => (keepsLine_iff hline hblank).mp (h.code i line hline hblank),
      fun i line hline before word after hword hplain =>
        (keepsWord_iff hline hword hplain).mp (h.plain i line hline before word after hword hplain)⟩
  · intro h
    refine ⟨text_parse _ sha1 text reference source, ?_, fun i line hline hblank => ?_,
      fun i line hline => ?_, fun i line hline before word after hword hplain => ?_⟩
    · rw [headings_parse, locate_kept, records, readLines, List.filterMap_map]
      rfl
    · exact (keepsLine_iff hline hblank).mpr (h.code i line hline hblank)
    · refine plain_words_shown (Bool.not_eq_true _ ▸ ?_)
      rw [isFence_of_roles hline.line hline.role]
      exact Role.noConfusion
    · exact (keepsWord_iff hline hword hplain).mpr
        (h.plain i line hline before word after hword hplain)

/-- Every line is in the normal form. -/
def asIs : SpacedForm where
  line t := t
  unbroken _ h := h
  line_nil := MarkdownOffsets.asIs.line_nil
  gap _ c _ hc := ⟨c, hc, rfl⟩
  solid _ h := h

/-- A comment in a code block is taken for a heading. -/
theorem code_read_as_prose :
    ¬ ∀ (nfc : SpacedForm) (sha1 : Text → Text) (text reference source : Text),
      Faithful nfc.toNormalForm text (parse nfc.toNormalForm sha1 text reference source) := by
  intro h
  have hcode := (h asIs id "```\nuci_get *\n# apply\n```\n".toList [] []).code
  have hline := hcode 2 "# apply".toList ⟨by rfl, by rfl⟩ (by decide)
  exact absurd hline.heading (by decide)

end OpenWrtCopilot.Ports.MarkdownFences
