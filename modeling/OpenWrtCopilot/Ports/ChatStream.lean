import OpenWrtCopilot.Verified.PyJson

/-!
# Streamed chat replies

Ports `post_sse` and `request_chat_stream`: the body of a response is split into lines, the
`data:` lines of an event are put together, and the deltas are taken out of the JSON.  An
event whose JSON cannot be read is skipped.  The lines are those of `str.splitlines`, which
knows more line boundaries than server-sent events do, and JSON lets three of them stand in
a string as they are.

## Main results

* `delivers_iff` — what an endpoint streams is delivered exactly if no content holds a line
  boundary that is written as it is.
* `split_content_lost` — a content with a line separator.
-/

namespace OpenWrtCopilot.Ports.ChatStream

open Verified
open Verified.PyDict (get?)
open Verified.PyJson
open Verified.PyText

/-! ## Server-sent events -/

def dataPrefix : Text := "data:".toList

/-- The body of the loop of `post_sse`: the data lines so far, and what is yielded. -/
def sseLine (dataLines : List Text) (line : Text) : List Text × Option Text :=
  let stripped := strip line
  if startsWith dataPrefix stripped then
    (dataLines ++ [strip (stripped.drop dataPrefix.length)], none)
  else if stripped = [] ∧ dataLines ≠ [] then ([], some (join ['\n'] dataLines))
  else (dataLines, none)

/-- `post_sse`, from the data lines so far: what it yields of the lines of a response. -/
def postSse : List Text → List Text → List Text
  | dataLines, [] => if dataLines ≠ [] then [join ['\n'] dataLines] else []
  | dataLines, line :: lines =>
      let (dataLines, payload) := sseLine dataLines line
      payload.toList ++ postSse dataLines lines

/-! ## Deltas -/

/-- `ChatChunk`. -/
structure ChatChunk where
  model : Text
  delta : Text
  finishReason : Option Text
  deriving DecidableEq, Repr

/-- `value.get(key)` of a dictionary. -/
def getField (key : Text) : Json → Except Text Json
  | .obj members => .ok ((get? key members).getD .null)
  | _ => .error "AttributeError".toList

/-- `a or b`. -/
def orJson (a b : Json) : Json := if a.truthy then a else b

/-- `value[0]`. -/
def firstItem : Json → Except Text Json
  | .arr (item :: _) => .ok item
  | .arr [] => .error "IndexError".toList
  | .str (c :: _) => .ok (.str [c])
  | .str [] => .error "IndexError".toList
  | .obj _ => .error "KeyError".toList
  | _ => .error "TypeError".toList

/-- A field of `ChatChunk` that is a text. -/
def textField : Json → Except Text Text
  | .str s => .ok s
  | _ => .error "ValidationError".toList

/-- A field of `ChatChunk` that may be `None`. -/
def optionalField : Json → Except Text (Option Text)
  | .null => .ok none
  | .str s => .ok (some s)
  | _ => .error "ValidationError".toList

/-- What `request_chat_stream` yields of an event, if anything. -/
def chunkOf (requestModel : Text) (event : Json) : Except Text (Option ChatChunk) := do
  let choice ← firstItem (orJson (← getField "choices".toList event) (.arr [.obj []]))
  let delta := orJson (← getField "delta".toList choice) (.obj [])
  let content ← getField "content".toList delta
  let finishReason ← getField "finish_reason".toList choice
  if content.truthy || finishReason.truthy then do
    let model ← getField "model".toList event
    let model ← textField (orJson model (.str requestModel))
    let text ← if content.truthy then textField content else pure []
    let finishReason ← optionalField finishReason
    return some { model := model, delta := text, finishReason := finishReason }
  else return none

def done : Text := "[DONE]".toList

/-- `request_chat_stream`, over what `post_sse` yields: the chunks, and how it ends. -/
def requestChatStream (requestModel : Text) : List Text → List ChatChunk × Except Text Unit
  | [] => ([], .ok ())
  | payload :: rest =>
      if payload = done then ([], .ok ())
      else
        match loads payload with
        | none => requestChatStream requestModel rest
        | some event =>
            match chunkOf requestModel event with
            | .error e => ([], .error e)
            | .ok chunk =>
                let (chunks, result) := requestChatStream requestModel rest
                (chunk.toList ++ chunks, result)

/-! ## The endpoint -/

/-- The text of an event around the spelling of its content, on one line. -/
structure Template where
  requestModel : Text
  before : Text
  after : Text
  /-- The tokens before the content. -/
  tokens : List Token
  before_singleLine : SingleLine before
  after_singleLine : SingleLine after
  before_head : ∀ c ∈ before.head?, isSpace c = false
  opens : Lexer.run {} before = some ⟨tokens, .string []⟩
  before_last : before.getLast? = some '"'
  after_head : after.head? = some '"'
  after_last : ∀ c ∈ after.getLast?, isSpace c = false
  /-- The content is the delta of the event. -/
  reads : ∀ content, ∃ event chunk,
    ((Lexer.run ⟨tokens, .string content⟩ after).bind Lexer.finish).bind parse = some event ∧
      chunkOf requestModel event = .ok chunk ∧
      (chunk.map (·.delta)).getD [] = content

/-- An event: a content, and which of its characters are escaped beside those JSON wants
escaped. -/
structure Event where
  content : Text
  escapes : Char → Bool
  /-- How many spaces stand after the colon. -/
  indent : Nat := 1

variable (template : Template)

def Event.json (e : Event) : Text :=
  template.before ++ spelled e.escapes e.content ++ template.after

/-- The `data:` line. -/
def Event.line (e : Event) : Text := dataPrefix ++ List.replicate e.indent ' ' ++ e.json template

def doneLine : Text := "data: [DONE]".toList

/-- The body of the response. -/
def body (events : List Event) : Text :=
  (events.flatMap fun e => e.line template ++ ['\n', '\n']) ++ doneLine ++ ['\n', '\n']

/-- What the client makes of the body. -/
def received (events : List Event) : List ChatChunk × Except Text Unit :=
  requestChatStream template.requestModel (postSse [] (splitlines (body template events)))

/-- The stream ends well, the deltas are the contents, and none of them is missing. -/
structure Delivers (events : List Event) : Prop where
  ends : (received template events).2 = .ok ()
  text : ((received template events).1.map (·.delta)).flatten =
    (events.map (·.content)).flatten
  events : ((received template events).1.map (·.delta)).filter (· ≠ []) =
    (events.map (·.content)).filter (· ≠ [])

/-- The content holds no line boundary that is written as it is. -/
def Event.Intact (e : Event) : Prop :=
  ∀ c ∈ e.content, isLineBoundary c = true → c.toNat < 0x20 ∨ e.escapes c = true

/-! ## Lines -/

/-- A boundary other than a carriage return cuts a line off. -/
theorem splitlines_cut {line : Text} (hline : SingleLine line) {b : Char}
    (hb : isLineBoundary b = true) (hreturn : b ≠ '\r') (rest : Text) :
    splitlines (line ++ b :: rest) = line :: splitlines rest := by
  induction line with
  | nil => exact splitlines_boundary hb fun h => hreturn h.1
  | cons c line ih =>
    have hc : isLineBoundary c = false := hline c List.mem_cons_self
    rw [List.cons_append, splitlines_ordinary hc,
      ih fun d hd => hline d (List.mem_cons_of_mem c hd)]

theorem singleLine_append {a b : Text} (ha : SingleLine a) (hb : SingleLine b) :
    SingleLine (a ++ b) := by
  intro c hc
  exact (List.mem_append.mp hc).elim (ha c) (hb c)

/-- The character is a line boundary that is written as it is. -/
def Cuts (escapes : Char → Bool) (c : Char) : Prop :=
  isLineBoundary c = true ∧ 0x20 ≤ c.toNat ∧ escapes c = false

instance (escapes : Char → Bool) (c : Char) : Decidable (Cuts escapes c) :=
  inferInstanceAs (Decidable (_ ∧ _ ∧ _))

theorem intact_iff (e : Event) : e.Intact ↔ ∀ c ∈ e.content, ¬ Cuts e.escapes c := by
  refine forall₂_congr fun c _ => ?_
  rw [Cuts]
  constructor
  · rintro h ⟨hb, hlo, hescapes⟩
    obtain hcontrol | hescaped := h hb
    · omega
    · rw [hescapes] at hescaped
      cases hescaped
  · intro h hb
    by_contra hneither
    rw [not_or, Bool.not_eq_true] at hneither
    exact h ⟨hb, by omega, hneither.2⟩

section Spelling

variable {escapes : Char → Bool}

theorem Cuts.spelling {c : Char} (h : Cuts escapes c) :
    spelling escapes c = [c] ∧ c ≠ '\r' := by
  have hreturn : c ≠ '\r' := by
    rintro rfl
    exact absurd h.2.1 (by decide)
  refine ⟨?_, hreturn⟩
  obtain ⟨hspelling, _⟩ | ⟨hescaped, _⟩ := spelling_cases escapes c
  · exact hspelling
  · obtain hcontrol | rfl | rfl | hescapes := hescaped
    · exact absurd h.2.1 (by omega)
    · exact absurd h.1 (by decide)
    · exact absurd h.1 (by decide)
    · rw [h.2.2] at hescapes
      cases hescapes

theorem singleLine_spelled {s : Text} (h : ∀ c ∈ s, ¬ Cuts escapes c) :
    SingleLine (spelled escapes s) := by
  intro x hx
  obtain ⟨c, hc, hx⟩ := List.mem_flatMap.mp hx
  obtain ⟨hspelling, _, _, hlo, hescapes⟩ | ⟨_, d, t, hspelling, hdlo, hdhi, ht⟩ :=
    spelling_cases escapes c
  · rw [hspelling] at hx
    obtain rfl := List.mem_singleton.mp hx
    by_contra hb
    exact h x hc ⟨Bool.not_eq_false _ ▸ hb, hlo, hescapes⟩
  · rw [hspelling] at hx
    obtain rfl | hx := List.mem_cons.mp hx
    · decide
    · obtain rfl | hx := List.mem_cons.mp hx
      · exact isLineBoundary_of_printable (by omega) hdhi
      · exact isLineBoundary_of_printable (by have := ht x hx; omega) (ht x hx).2.1

/-- A string up to its first character that cuts. -/
theorem exists_cut {s : Text} (h : ¬ ∀ c ∈ s, ¬ Cuts escapes c) :
    ∃ (first : Text) (b : Char) (rest : Text),
      s = first ++ b :: rest ∧ (∀ c ∈ first, ¬ Cuts escapes c) ∧ Cuts escapes b := by
  induction s with
  | nil => exact absurd nofun h
  | cons c s ih =>
    by_cases hc : Cuts escapes c
    · exact ⟨[], c, s, rfl, nofun, hc⟩
    · have hs : ¬ ∀ d ∈ s, ¬ Cuts escapes d := by
        intro hs
        exact h (List.forall_mem_cons.mpr ⟨hc, hs⟩)
      obtain ⟨first, b, rest, rfl, hfirst, hb⟩ := ih hs
      exact ⟨c :: first, b, rest, rfl, List.forall_mem_cons.mpr ⟨hc, hfirst⟩, hb⟩

/-- What follows the first cut: pieces of the string, and its end with what stands behind. -/
theorem splitlines_spelled (escapes : Char → Bool) {after : Text} (hafter : SingleLine after)
    (s : Text) :
    ∃ (middle : List Text) (last : Text), splitlines (spelled escapes s ++ (after ++ ['\n'])) =
      middle.map (spelled escapes) ++ [spelled escapes last ++ after] := by
  induction hlength : s.length using Nat.strong_induction_on generalizing s with
  | _ n ih =>
    by_cases hs : ∀ c ∈ s, ¬ Cuts escapes c
    · refine ⟨[], s, ?_⟩
      rw [← List.append_assoc, List.map_nil, List.nil_append]
      exact splitlines_singleLine_newline (singleLine_append (singleLine_spelled hs) hafter)
    · obtain ⟨first, b, rest, rfl, hfirst, hb⟩ := exists_cut hs
      obtain ⟨hspelling, hreturn⟩ := hb.spelling
      obtain ⟨middle, last, hrest⟩ := ih rest.length
        (by rw [← hlength, List.length_append, List.length_cons]; omega) rest rfl
      refine ⟨first :: middle, last, ?_⟩
      rw [spelled_append, spelled_cons, hspelling, List.append_assoc, List.append_assoc,
        List.singleton_append, splitlines_cut (singleLine_spelled hfirst) hb.1 hreturn, hrest]
      rfl

end Spelling

/-! ## The lines of an event -/

variable {template}

theorem splitlines_body (events : List Event) :
    splitlines (body template events) =
      (events.flatMap fun e => splitlines (e.line template ++ ['\n']) ++ [[]]) ++
        [doneLine, []] := by
  induction events with
  | nil => rfl
  | cons e events ih =>
    have hbody : body template (e :: events) =
        e.line template ++ '\n' :: '\n' :: body template events := by
      simp [body]
    rw [hbody, splitlines_append_newline, splitlines_newline, ih, List.flatMap_cons]
    simp

theorem Template.before_ne_nil (template : Template) : template.before ≠ [] := by
  intro hnil
  have hlast := template.before_last
  rw [hnil] at hlast
  cases hlast

theorem Template.after_ne_nil (template : Template) : template.after ≠ [] := by
  intro hnil
  have hhead := template.after_head
  rw [hnil] at hhead
  cases hhead

theorem json_head (e : Event) : ∀ c ∈ (e.json template).head?, isSpace c = false := by
  obtain ⟨c, rest, hcons⟩ := List.exists_cons_of_ne_nil template.before_ne_nil
  have hhead := template.before_head
  rw [hcons] at hhead
  rw [Event.json, hcons]
  exact hhead

theorem json_last (e : Event) : ∀ c ∈ (e.json template).getLast?, isSpace c = false := by
  rw [Event.json, List.getLast?_append_of_ne_nil _ template.after_ne_nil]
  exact template.after_last

theorem json_ne_nil (e : Event) : e.json template ≠ [] := by
  rw [Event.json]
  simp [template.before_ne_nil]

/-- The spaces after the colon are stripped off. -/
theorem strip_indent (n : Nat) (t : Text) : strip (List.replicate n ' ' ++ t) = strip t := by
  have hspace : isSpace ' ' = true := by decide
  induction n with
  | zero => rfl
  | succ n ih =>
    rw [List.replicate_succ, List.cons_append, strip, lstrip,
      List.dropWhile_cons_of_pos hspace]
    exact ih

theorem strip_cons_of_not_space {c : Char} (hc : isSpace c = false) (t : Text) :
    strip (c :: t) = rstrip (c :: t) := by
  rw [strip, lstrip, List.dropWhile_cons_of_neg (by simp [hc])]

theorem strip_dataPrefix (t : Text) : strip (dataPrefix ++ t) = rstrip (dataPrefix ++ t) :=
  strip_cons_of_not_space (by decide) _

/-- The data line of a text without spaces at its ends. -/
theorem sseLine_data {t : Text} (hne : t ≠ []) (hhead : ∀ c ∈ t.head?, isSpace c = false)
    (hlast : ∀ c ∈ t.getLast?, isSpace c = false) (indent : Nat) (dataLines : List Text) :
    sseLine dataLines (dataPrefix ++ List.replicate indent ' ' ++ t) =
      (dataLines ++ [t], none) := by
  have hstrip : strip (dataPrefix ++ List.replicate indent ' ' ++ t) =
      dataPrefix ++ (List.replicate indent ' ' ++ t) := by
    rw [List.append_assoc, strip_dataPrefix]
    refine rstrip_eq_self ?_
    rw [← List.append_assoc, List.getLast?_append_of_ne_nil _ hne]
    exact hlast
  simp only [sseLine, hstrip, startsWith_append, if_true, List.drop_left, strip_indent,
    strip_of_ends hne hhead hlast]

/-- The blank line after an event. -/
theorem sseLine_blank {dataLines : List Text} (h : dataLines ≠ []) :
    sseLine dataLines [] = ([], some (join ['\n'] dataLines)) := by
  have hstrip : strip [] = [] := rfl
  have hstarts : startsWith dataPrefix [] = false := rfl
  simp only [sseLine, hstrip, hstarts, Bool.false_eq_true, if_false, h, ne_eq,
    not_false_eq_true, and_self, if_true]

theorem singleLine_indent (indent : Nat) :
    SingleLine (dataPrefix ++ List.replicate indent ' ') := by
  refine singleLine_append (by decide) fun c hc => ?_
  obtain rfl := List.eq_of_mem_replicate hc
  decide

theorem singleLine_line {e : Event} (h : e.Intact) : SingleLine (e.line template) := by
  refine singleLine_append (singleLine_indent e.indent) ?_
  refine singleLine_append (singleLine_append template.before_singleLine ?_)
    template.after_singleLine
  exact singleLine_spelled ((intact_iff e).mp h)

/-- An event that holds no line boundary is yielded as it was written. -/
theorem postSse_intact {e : Event} (h : e.Intact) (rest : List Text) :
    postSse [] (splitlines (e.line template ++ ['\n']) ++ [[]] ++ rest) =
      e.json template :: postSse [] rest := by
  rw [splitlines_singleLine_newline (singleLine_line h), List.singleton_append,
    List.cons_append, postSse, Event.line,
    sseLine_data (json_ne_nil e) (json_head e) (json_last e)]
  simp only [List.nil_append, Option.toList_none, List.cons_append]
  rw [postSse, sseLine_blank (List.cons_ne_nil _ _)]
  simp

/-! ## An event that is cut -/

/-- Nothing is taken out of the payload. -/
def Barren (requestModel : Text) (payload : Text) : Prop :=
  payload = done ∨ ∀ event, loads payload = some event →
    chunkOf requestModel event = .ok none ∨ ∃ e, chunkOf requestModel event = .error e

/-- The data lines that a cut event leaves: its beginning and perhaps more, or pieces of its
content, perhaps with its end. -/
inductive Remains (template : Template) (escapes : Char → Bool) : List Text → Prop where
  | opened (content : Text) (rest : List Text) :
      Remains template escapes ((template.before ++ spelled escapes content) :: rest)
  | pieces (pieces : List Text) : Remains template escapes (pieces.map (spelled escapes))
  | closed (pieces : List Text) (content : Text) :
      Remains template escapes
        (pieces.map (spelled escapes) ++ [spelled escapes content ++ template.after])

section Cut

variable {escapes : Char → Bool}

/-- An object without members, or what is no object. -/
theorem barren_of_noStrings {requestModel payload : Text} {tokens : List Token}
    (htokens : tokenize payload = some tokens) (h : ∀ s, Token.str s ∉ tokens) :
    Barren requestModel payload := by
  refine Or.inr fun event hevent => ?_
  rw [loads, htokens, Option.bind_some] at hevent
  cases event with
  | obj members =>
    obtain rfl := parse_noStrings h hevent
    exact Or.inl rfl
  | _ => exact Or.inr ⟨_, rfl⟩

theorem barren_of_tokenize {requestModel payload : Text} (h : tokenize payload = none) :
    Barren requestModel payload := by
  refine Or.inr fun event hevent => ?_
  rw [loads, h] at hevent
  cases hevent

/-- All lines but the last one stand before a separator. -/
theorem join_concat (sep : Text) (lines : List Text) (last : Text) :
    join sep (lines ++ [last]) = (lines.flatMap fun line => line ++ sep) ++ last := by
  induction lines with
  | nil => exact join_singleton sep last
  | cons line lines ih =>
    rw [List.cons_append, join_cons_of_ne_nil _ _ (by simp), ih, List.flatMap_cons]
    simp

/-- Pieces of a string, read outside of any. -/
theorem plain_pieces {l l' : Lexer} (h : l.Plain) {pieces : List Text}
    (hrun : l.run ((pieces.map (spelled escapes)).flatMap fun line => line ++ ['\n']) =
      some l') : l'.Plain := by
  induction pieces generalizing l with
  | nil => exact Option.some.inj hrun ▸ h
  | cons piece pieces ih =>
    rw [List.map_cons, List.flatMap_cons, Lexer.run_append, Lexer.run_append] at hrun
    obtain ⟨afterLine, hline, hrest⟩ := Option.bind_eq_some_iff.mp hrun
    obtain ⟨afterPiece, hpiece, hnewline⟩ := Option.bind_eq_some_iff.mp hline
    have hplain := (h.spelled hpiece).run (List.forall_mem_singleton.mpr (by decide)) hnewline
    exact ih hplain hrest

/-- A machine that has read no string ends without one. -/
theorem plain_finish {l : Lexer} (h : l.Plain) {tokens : List Token}
    (hfinish : l.finish = some tokens) : ∀ s, Token.str s ∉ tokens := by
  rw [Lexer.finish] at hfinish
  obtain hground | ⟨w, hword⟩ := h.outside
  · rw [hground] at hfinish
    exact Option.some.inj hfinish ▸ h.noStrings
  · simp only [hword] at hfinish
    split_ifs at hfinish
    obtain rfl := Option.some.inj hfinish
    intro s hs
    obtain hs | hs := List.mem_append.mp hs
    · exact h.noStrings s hs
    · cases List.mem_singleton.mp hs

theorem barren_remains {dataLines : List Text} (h : Remains template escapes dataLines) :
    Barren template.requestModel (join ['\n'] dataLines) := by
  cases h with
  | opened content rest =>
    refine barren_of_tokenize ?_
    have hopen : Lexer.run {} (template.before ++ spelled escapes content) =
        some ⟨template.tokens, .string content⟩ := by
      rw [Lexer.run_append, template.opens, Option.bind_some, run_spelled, List.nil_append]
    cases rest with
    | nil =>
      have hend := tokenize_unterminated hopen (Or.inl rfl)
      rwa [join_singleton, ← List.append_nil (template.before ++ _)]
    | cons next rest =>
      rw [join_cons_of_ne_nil _ _ (List.cons_ne_nil _ _), List.append_assoc]
      exact tokenize_unterminated hopen (Or.inr rfl)
  | pieces pieces =>
    cases htokens : tokenize (join ['\n'] (pieces.map (spelled escapes))) with
    | none => exact barren_of_tokenize htokens
    | some tokens =>
      refine barren_of_noStrings htokens ?_
      obtain ⟨l, hrun, hfinish⟩ := Option.bind_eq_some_iff.mp htokens
      refine plain_finish ?_ hfinish
      cases pieces using List.reverseRecOn with
      | nil => exact Option.some.inj hrun ▸ Lexer.plain_start
      | append_singleton pieces last =>
        rw [List.map_append, List.map_singleton, join_concat, Lexer.run_append] at hrun
        obtain ⟨middle, hfirst, hlast⟩ := Option.bind_eq_some_iff.mp hrun
        exact (plain_pieces Lexer.plain_start hfirst).spelled hlast
  | closed pieces content =>
    refine barren_of_tokenize ?_
    rw [tokenize, join_concat, Lexer.run_append]
    cases hpieces : Lexer.run {} ((pieces.map (spelled escapes)).flatMap (· ++ ['\n'])) with
    | none => rfl
    | some l =>
      have hplain := plain_pieces Lexer.plain_start hpieces
      rw [Option.bind_some, Lexer.run_append]
      cases hcontent : l.run (spelled escapes content) with
      | none => rfl
      | some l' =>
        -- the quote that ends the content begins a string here
        obtain ⟨event, chunk, hreads, _⟩ := template.reads []
        obtain ⟨tokens, htokens, _⟩ := Option.bind_eq_some_iff.mp hreads
        obtain ⟨ended, hrun, hfinish⟩ := Option.bind_eq_some_iff.mp htokens
        refine Lexer.finish_opposite (.inside rfl (hplain.spelled hcontent).outside) hrun ?_
        rw [hfinish]
        exact Option.some_ne_none _

/-- The data lines before the end of a cut event. -/
inductive Begun (template : Template) (escapes : Char → Bool) : List Text → Prop where
  | opened (content : Text) (rest : List Text) :
      Begun template escapes ((template.before ++ spelled escapes content) :: rest)
  | pieces (pieces : List Text) : Begun template escapes (pieces.map (spelled escapes))

theorem Begun.remains {dataLines : List Text} (h : Begun template escapes dataLines) :
    Remains template escapes dataLines := by
  cases h with
  | opened content rest => exact .opened content rest
  | pieces pieces => exact .pieces pieces

theorem Begun.concat {dataLines : List Text} (h : Begun template escapes dataLines) (s : Text) :
    Begun template escapes (dataLines ++ [spelled escapes s]) := by
  cases h with
  | opened content rest => exact .opened content (rest ++ [spelled escapes s])
  | pieces pieces =>
    rw [← List.map_singleton, ← List.map_append]
    exact .pieces (pieces ++ [s])

theorem Begun.close {dataLines : List Text} (h : Begun template escapes dataLines) (s : Text) :
    Remains template escapes (dataLines ++ [spelled escapes s ++ template.after]) := by
  cases h with
  | opened content rest => exact .opened content _
  | pieces pieces => exact .closed pieces s

theorem strip_spelled (escapes : Char → Bool) (s : Text) :
    ∃ s', strip (spelled escapes s) = spelled escapes s' := by
  obtain ⟨s₁, hleft⟩ := @lstrip_spelled escapes s [] nofun
  obtain ⟨s₂, hright⟩ := @rstrip_spelled escapes [] nofun s₁
  rw [List.append_nil, List.append_nil] at hleft
  exact ⟨s₂, by rw [strip, hleft]; exact hright⟩

theorem strip_spelled_after (template : Template) (escapes : Char → Bool) (s : Text) :
    ∃ s', strip (spelled escapes s ++ template.after) = spelled escapes s' ++ template.after := by
  have hhead : ∀ c ∈ template.after.head?, isSpace c = false := by
    rw [template.after_head]
    rintro _ ⟨rfl⟩
    decide
  obtain ⟨s', hleft⟩ := lstrip_spelled escapes s hhead
  refine ⟨s', ?_⟩
  rw [strip, hleft]
  refine rstrip_eq_self ?_
  rw [List.getLast?_append_of_ne_nil _ template.after_ne_nil]
  exact template.after_last

/-- A piece that looks like a data line. -/
theorem drop_dataPrefix {after : Text} (hafter : after = [] ∨ after.head? = some '"') {s : Text}
    (h : startsWith dataPrefix (spelled escapes s ++ after) = true) :
    ∃ s', (spelled escapes s ++ after).drop dataPrefix.length = spelled escapes s' ++ after := by
  obtain ⟨t, ht⟩ := List.isPrefixOf_iff_prefix.mp h
  obtain ⟨s', hs'⟩ := spelled_drop escapes (by decide) hafter ht.symm
  exact ⟨s', by rw [← ht, List.drop_left, hs']⟩

/-- A piece of the content. -/
theorem sseLine_piece {dataLines : List Text} (h : Begun template escapes dataLines) (s : Text) :
    Begun template escapes (sseLine dataLines (spelled escapes s)).1 ∧
      ∀ payload ∈ (sseLine dataLines (spelled escapes s)).2,
        Barren template.requestModel payload := by
  obtain ⟨stripped, hstrip⟩ := strip_spelled escapes s
  rw [sseLine, hstrip]
  by_cases hdata : startsWith dataPrefix (spelled escapes stripped) = true
  · obtain ⟨data, hdrop⟩ := drop_dataPrefix (Or.inl rfl)
      (show startsWith dataPrefix (spelled escapes stripped ++ []) = true by
        rwa [List.append_nil])
    rw [List.append_nil, List.append_nil] at hdrop
    obtain ⟨content, hcontent⟩ := strip_spelled escapes data
    simp only [if_pos hdata, hdrop, hcontent]
    exact ⟨h.concat content, nofun⟩
  · simp only [if_neg hdata]
    by_cases hblank : spelled escapes stripped = [] ∧ dataLines ≠ []
    · rw [if_pos hblank]
      refine ⟨.pieces [], ?_⟩
      rintro _ ⟨rfl⟩
      exact barren_remains h.remains
    · rw [if_neg hblank]
      exact ⟨h, nofun⟩

/-- The end of the content, with what stands behind it. -/
theorem sseLine_end {dataLines : List Text} (h : Begun template escapes dataLines) (s : Text) :
    ∃ dataLines', sseLine dataLines (spelled escapes s ++ template.after) = (dataLines', none) ∧
      Remains template escapes dataLines' := by
  obtain ⟨stripped, hstrip⟩ := strip_spelled_after template escapes s
  rw [sseLine, hstrip]
  by_cases hdata : startsWith dataPrefix (spelled escapes stripped ++ template.after) = true
  · obtain ⟨data, hdrop⟩ := drop_dataPrefix (Or.inr template.after_head) hdata
    obtain ⟨content, hcontent⟩ := strip_spelled_after template escapes data
    simp only [if_pos hdata, hdrop, hcontent]
    exact ⟨_, rfl, h.close content⟩
  · have hne : ¬ (spelled escapes stripped ++ template.after = [] ∧ dataLines ≠ []) := by
      intro hblank
      exact template.after_ne_nil (List.append_eq_nil_iff.mp hblank.1).2
    simp only [if_neg hdata, if_neg hne]
    exact ⟨_, rfl, h.remains⟩

/-- The lines after the first cut, up to the blank line. -/
theorem postSse_pieces (middle : List Text) (last : Text) {dataLines : List Text}
    (h : Begun template escapes dataLines) :
    ∃ payloads, (∀ payload ∈ payloads, Barren template.requestModel payload) ∧
      ∀ rest, postSse dataLines (middle.map (spelled escapes) ++
          [spelled escapes last ++ template.after] ++ [[]] ++ rest) =
        payloads ++ postSse [] rest := by
  induction middle generalizing dataLines with
  | nil =>
    obtain ⟨dataLines', hend, hremains⟩ := sseLine_end h last
    by_cases hne : dataLines' = []
    · refine ⟨[], nofun, fun rest => ?_⟩
      subst hne
      have hblank : sseLine [] [] = ([], none) := rfl
      simp [postSse, hend, hblank]
    · refine ⟨[join ['\n'] dataLines'],
        List.forall_mem_singleton.mpr (barren_remains hremains), fun rest => ?_⟩
      simp [postSse, hend, sseLine_blank hne]
  | cons piece middle ih =>
    obtain ⟨hbegun, hbarren⟩ := sseLine_piece h piece
    obtain ⟨payloads, hpayloads, hrest⟩ := ih hbegun
    refine ⟨(sseLine dataLines (spelled escapes piece)).2.toList ++ payloads, ?_,
      fun rest => ?_⟩
    · rw [List.forall_mem_append]
      exact ⟨fun payload hp => hbarren payload (Option.mem_toList.mp hp), hpayloads⟩
    · rw [List.append_assoc _ payloads, ← hrest]
      rfl

/-- The line up to the first cut. -/
theorem sseLine_begin (template : Template) (escapes : Char → Bool) (indent : Nat) (s : Text) :
    ∃ s', sseLine [] (dataPrefix ++ List.replicate indent ' ' ++ template.before ++
        spelled escapes s) = ([template.before ++ spelled escapes s'], none) := by
  have hlast : ∀ c ∈ template.before.getLast?, isSpace c = false := by
    rw [template.before_last]
    rintro _ ⟨rfl⟩
    decide
  have hlastAll : ∀ c ∈ (dataPrefix ++ List.replicate indent ' ' ++ template.before).getLast?,
      isSpace c = false := by
    rw [List.getLast?_append_of_ne_nil _ template.before_ne_nil]
    exact hlast
  obtain ⟨s₁, hright⟩ := rstrip_spelled escapes hlastAll s
  obtain ⟨s₂, hagain⟩ := rstrip_spelled escapes hlast s₁
  have hstrip : strip (dataPrefix ++ List.replicate indent ' ' ++ template.before ++
      spelled escapes s) =
        dataPrefix ++ (List.replicate indent ' ' ++ (template.before ++ spelled escapes s₁)) := by
    rw [← List.append_assoc, ← List.append_assoc, ← hright]
    simp only [List.append_assoc, strip_dataPrefix]
  have hdata : strip (template.before ++ spelled escapes s₁) =
      template.before ++ spelled escapes s₂ := by
    obtain ⟨c, rest, hcons⟩ := List.exists_cons_of_ne_nil template.before_ne_nil
    have hspace : isSpace c = false := template.before_head c (by rw [hcons]; rfl)
    rw [← hagain, hcons]
    exact strip_cons_of_not_space hspace _
  refine ⟨s₂, ?_⟩
  simp only [sseLine, hstrip, startsWith_append, if_true, List.drop_left, strip_indent, hdata,
    List.nil_append]

/-- **Nothing is taken out of an event that is cut.** -/
theorem postSse_cut (template : Template) {e : Event} (h : ¬ e.Intact) :
    ∃ payloads, (∀ payload ∈ payloads, Barren template.requestModel payload) ∧
      ∀ rest, postSse [] (splitlines (e.line template ++ ['\n']) ++ [[]] ++ rest) =
        payloads ++ postSse [] rest := by
  rw [intact_iff] at h
  obtain ⟨first, b, later, hcontent, hfirst, hb⟩ := exists_cut h
  obtain ⟨hspelling, hreturn⟩ := hb.spelling
  obtain ⟨middle, last, hlater⟩ := splitlines_spelled e.escapes template.after_singleLine later
  have hline : e.line template ++ ['\n'] =
      (dataPrefix ++ List.replicate e.indent ' ' ++ template.before ++ spelled e.escapes first) ++
        b :: (spelled e.escapes later ++ (template.after ++ ['\n'])) := by
    rw [Event.line, Event.json, hcontent, spelled_append, spelled_cons, hspelling]
    simp only [List.append_assoc, List.cons_append, List.nil_append]
  have hsingle : SingleLine (dataPrefix ++ List.replicate e.indent ' ' ++ template.before ++
      spelled e.escapes first) := by
    refine singleLine_append ?_ (singleLine_spelled hfirst)
    exact singleLine_append (singleLine_indent e.indent) template.before_singleLine
  obtain ⟨s', hbegin⟩ := sseLine_begin template e.escapes e.indent first
  have hbegun : Begun template e.escapes [template.before ++ spelled e.escapes s'] :=
    .opened s' []
  obtain ⟨payloads, hbarren, hrest⟩ := postSse_pieces middle last hbegun
  refine ⟨payloads, hbarren, fun rest => ?_⟩
  rw [hline, splitlines_cut hsingle hb.1 hreturn, hlater, List.cons_append, List.cons_append,
    postSse, hbegin, ← hrest]
  rfl

end Cut

/-! ## The whole stream -/

/-- What is left of the response from an event on. -/
abbrev linesFrom (template : Template) (events : List Event) : List Text :=
  (events.flatMap fun e => splitlines (e.line template ++ ['\n']) ++ [[]]) ++ [doneLine, []]

theorem received_eq (events : List Event) :
    received template events =
      requestChatStream template.requestModel (postSse [] (linesFrom template events)) := by
  rw [received, splitlines_body]

/-- After the last event. -/
theorem stream_done (requestModel : Text) :
    requestChatStream requestModel (postSse [] (linesFrom template [])) = ([], .ok ()) := by
  have hpayloads : postSse [] [doneLine, []] = [done] := by decide
  rw [linesFrom, List.flatMap_nil, List.nil_append, hpayloads, requestChatStream, if_pos rfl]

theorem linesFrom_cons (e : Event) (events : List Event) :
    linesFrom template (e :: events) =
      splitlines (e.line template ++ ['\n']) ++ [[]] ++ linesFrom template events := by
  rw [linesFrom, List.flatMap_cons, List.append_assoc]

/-- An event as it was written gives its content. -/
theorem loads_json (template : Template) (e : Event) :
    ∃ event chunk, loads (e.json template) = some event ∧
      chunkOf template.requestModel event = .ok chunk ∧
      (chunk.map (·.delta)).getD [] = e.content := by
  obtain ⟨event, chunk, hreads, hchunk⟩ := template.reads e.content
  refine ⟨event, chunk, ?_, hchunk⟩
  rw [loads, tokenize, Event.json, Lexer.run_append, Lexer.run_append, template.opens,
    Option.bind_some, run_spelled, List.nil_append, Option.bind_some]
  exact hreads

theorem json_ne_done (e : Event) : e.json template ≠ done := by
  intro hdone
  obtain ⟨event, chunk, hloads, _⟩ := loads_json template e
  rw [hdone] at hloads
  have hnone : loads done = none := by decide
  cases hnone.symm.trans hloads

theorem stream_intact (e : Event) (rest : List Text) :
    ∃ chunk : Option ChatChunk, (chunk.map (·.delta)).getD [] = e.content ∧
      requestChatStream template.requestModel (e.json template :: rest) =
        (chunk.toList ++ (requestChatStream template.requestModel rest).1,
          (requestChatStream template.requestModel rest).2) := by
  obtain ⟨event, chunk, hloads, hchunk, hcontent⟩ := loads_json template e
  refine ⟨chunk, hcontent, ?_⟩
  rw [requestChatStream, if_neg (json_ne_done e)]
  simp only [hloads, hchunk]

/-- Payloads that hold nothing add no chunk; they may end the stream. -/
theorem stream_barren {requestModel : Text} {payloads : List Text}
    (h : ∀ payload ∈ payloads, Barren requestModel payload) (rest : List Text) :
    (requestChatStream requestModel (payloads ++ rest)).1 = [] ∨
      requestChatStream requestModel (payloads ++ rest) = requestChatStream requestModel rest := by
  induction payloads with
  | nil => exact Or.inr rfl
  | cons payload payloads ih =>
    have hlater := ih fun p hp => h p (List.mem_cons_of_mem payload hp)
    rw [List.cons_append, requestChatStream]
    by_cases hdone : payload = done
    · rw [if_pos hdone]
      exact Or.inl rfl
    · rw [if_neg hdone]
      have hbarren := (h payload List.mem_cons_self).resolve_left hdone
      cases hloads : loads payload with
      | none => exact hlater
      | some event =>
        obtain hnone | ⟨e, herror⟩ := hbarren event hloads
        · simpa only [hnone, Option.toList_none, List.nil_append] using hlater
        · exact Or.inl (by simp only [herror])

/-- The length of what was received. -/
def size (chunks : List ChatChunk) : Nat := ((chunks.map (·.delta)).flatten).length

theorem size_append (a b : List ChatChunk) : size (a ++ b) = size a + size b := by
  simp [size]

theorem size_toList (chunk : Option ChatChunk) :
    size chunk.toList = ((chunk.map (·.delta)).getD []).length := by
  cases chunk <;> simp [size]

/-- The length of what was sent. -/
def sent (events : List Event) : Nat := ((events.map (·.content)).flatten).length

theorem sent_cons (e : Event) (events : List Event) :
    sent (e :: events) = e.content.length + sent events := by
  simp [sent]

/-- What was received of the events from one on. -/
def streamed (template : Template) (events : List Event) : List ChatChunk × Except Text Unit :=
  requestChatStream template.requestModel (postSse [] (linesFrom template events))

theorem streamed_intact (template : Template) {e : Event} (h : e.Intact) (events : List Event) :
    ∃ chunk : Option ChatChunk, (chunk.map (·.delta)).getD [] = e.content ∧
      streamed template (e :: events) =
        (chunk.toList ++ (streamed template events).1, (streamed template events).2) := by
  rw [streamed, linesFrom_cons, postSse_intact h]
  exact stream_intact e _

/-- Of an event that is cut nothing is received, and perhaps nothing after it. -/
theorem size_streamed_cut (template : Template) {e : Event} (h : ¬ e.Intact)
    (events : List Event) :
    size (streamed template (e :: events)).1 ≤ size (streamed template events).1 := by
  obtain ⟨payloads, hbarren, hrest⟩ := postSse_cut template h
  rw [streamed, linesFrom_cons, hrest]
  obtain hnone | hsame := stream_barren hbarren (postSse [] (linesFrom template events))
  · rw [hnone]
    exact Nat.zero_le _
  · rw [hsame]
    exact Nat.le_refl _

/-- No more is received than was sent. -/
theorem size_streamed_le (template : Template) (events : List Event) :
    size (streamed template events).1 ≤ sent events := by
  induction events with
  | nil =>
    rw [streamed, stream_done]
    exact Nat.zero_le _
  | cons e events ih =>
    rw [sent_cons]
    by_cases hintact : e.Intact
    · obtain ⟨chunk, hcontent, hstreamed⟩ := streamed_intact template hintact events
      rw [hstreamed, size_append, size_toList, hcontent]
      omega
    · have hcut := size_streamed_cut template hintact events
      omega

/-- Less is received than was sent if an event is cut. -/
theorem size_streamed_lt (template : Template) {events : List Event}
    (h : ∃ e ∈ events, ¬ e.Intact) :
    size (streamed template events).1 < sent events := by
  induction events with
  | nil =>
    obtain ⟨_, hmem, _⟩ := h
    cases hmem
  | cons e events ih =>
    rw [sent_cons]
    by_cases hintact : e.Intact
    · obtain ⟨chunk, hcontent, hstreamed⟩ := streamed_intact template hintact events
      rw [hstreamed, size_append, size_toList, hcontent]
      have hrest : ∃ e ∈ events, ¬ e.Intact := by
        obtain ⟨other, hmem, hother⟩ := h
        obtain rfl | hmem := List.mem_cons.mp hmem
        · exact absurd hintact hother
        · exact ⟨other, hmem, hother⟩
      have hless := ih hrest
      omega
    · have hcut := size_streamed_cut template hintact events
      have hall := size_streamed_le template events
      have hcontent : 0 < e.content.length := by
        refine List.length_pos_iff.mpr fun hnil => hintact ?_
        rw [Event.Intact, hnil]
        nofun
      omega

/-- Events that are not cut are all received, each as one delta. -/
theorem streamed_of_intact (template : Template) {events : List Event}
    (h : ∀ e ∈ events, e.Intact) :
    (streamed template events).2 = .ok () ∧
      (((streamed template events).1.map (·.delta)).flatten =
        (events.map (·.content)).flatten) ∧
      ((streamed template events).1.map (·.delta)).filter (· ≠ []) =
        (events.map (·.content)).filter (· ≠ []) := by
  induction events with
  | nil =>
    rw [streamed, stream_done]
    exact ⟨rfl, rfl, rfl⟩
  | cons e events ih =>
    obtain ⟨hends, htext, hevents⟩ := ih fun e' he' => h e' (List.mem_cons_of_mem e he')
    obtain ⟨chunk, hcontent, hstreamed⟩ :=
      streamed_intact template (h e List.mem_cons_self) events
    rw [hstreamed]
    refine ⟨hends, ?_, ?_⟩
    · rw [List.map_append, List.flatten_append, htext, List.map_cons, List.flatten_cons,
        ← hcontent]
      cases chunk <;> simp
    · rw [List.map_append, List.filter_append, hevents, List.map_cons, ← hcontent]
      cases chunk with
      | none => simp
      | some chunk => by_cases hempty : chunk.delta = [] <;> simp [hempty]

/-- **What an endpoint streams is delivered exactly if no content holds a line boundary that
is written as it is.** -/
theorem delivers_iff (template : Template) (events : List Event) :
    Delivers template events ↔ ∀ e ∈ events, e.Intact := by
  have hreceived : received template events = streamed template events := received_eq events
  constructor
  · intro hdelivers
    by_contra hcut
    push Not at hcut
    have hless := size_streamed_lt template hcut
    have htext := hdelivers.text
    rw [hreceived] at htext
    rw [size, sent, htext] at hless
    omega
  · intro hintact
    obtain ⟨hends, htext, hevents⟩ := streamed_of_intact template hintact
    refine ⟨?_, ?_, ?_⟩
    · rw [hreceived]
      exact hends
    · rw [hreceived]
      exact htext
    · rw [hreceived]
      exact hevents

/-- An event with nothing but a delta. -/
def deltaTemplate : Template where
  requestModel := "gpt".toList
  before := "\x7b\"choices\":[\x7b\"delta\":\x7b\"content\":\"".toList
  after := "\"\x7d\x7d]\x7d".toList
  tokens := [.lbrace, .str "choices".toList, .colon, .lbracket, .lbrace, .str "delta".toList,
    .colon, .lbrace, .str "content".toList, .colon]
  before_singleLine := by decide
  after_singleLine := by decide
  before_head := by decide
  opens := by rfl
  before_last := by decide
  after_head := by decide
  after_last := by decide
  reads := by
    intro content
    cases content with
    | nil => exact ⟨_, none, rfl, rfl, rfl⟩
    | cons c content => exact ⟨_, some ⟨_, c :: content, _⟩, rfl, rfl, rfl⟩

/-- A line separator that JSON lets stand in a string: nothing is received, and no error. -/
theorem split_content_lost :
    received deltaTemplate [⟨"a\u2028b".toList, fun _ => false, 1⟩] = ([], .ok ()) ∧
      ¬ Delivers deltaTemplate [⟨"a\u2028b".toList, fun _ => false, 1⟩] := by
  have hreceived :
      received deltaTemplate [⟨"a\u2028b".toList, fun _ => false, 1⟩] = ([], .ok ()) := rfl
  refine ⟨hreceived, fun hdelivers => ?_⟩
  have htext := hdelivers.text
  rw [hreceived] at htext
  cases htext

end OpenWrtCopilot.Ports.ChatStream
