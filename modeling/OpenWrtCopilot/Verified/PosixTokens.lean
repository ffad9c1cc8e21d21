import OpenWrtCopilot.Verified.PyText

/-!
# POSIX shell tokens

The token recognition of the POSIX shell, as a scanner that reads one character
at a time: operators, words with their quoting, the numbers before a
redirection, comments and command substitutions.

A text the scanner does not cover (here-documents, backquotes, `${`, arithmetic
expansion, quotes inside a command substitution, an unclosed quote) has no
tokens, so every statement about the tokens of a text covers such texts too.

## Main results

* `scan_append` — scanning is compositional.
* `Reads.quote` — a single-quoted text is read literally, whatever it holds.
* `Reads.bare` — plain characters are read into the word they stand in.
* `BreaksFrom.newline` — an unquoted newline ends the command it stands in.
-/

namespace OpenWrtCopilot.Verified.PosixTokens

open Verified.PyText

/-! ## Tokens -/

/-- A character of a word, with the way it is quoted. -/
inductive WordChar
  | bare (c : Char)
  /-- Single-quoted or escaped. -/
  | literal (c : Char)
  /-- Between double quotes. -/
  | double (c : Char)
  /-- `$(text)`. -/
  | substitution (text : Text)
  deriving DecidableEq

abbrev Word := List WordChar

/-- The tokens of the shell grammar. -/
inductive Token
  | word (w : Word)
  /-- The digits right before a redirection. -/
  | ioNumber (w : Word)
  /-- An operator other than the newline. -/
  | operator (text : Text)
  | newline
  deriving DecidableEq

/-- Where the scanner stands. -/
inductive State
  /-- Outside quotes, with the word begun so far. -/
  | plain (w : Option Word)
  | single (w : Word)
  | double (w : Word)
  | escaped (w : Option Word)
  | doubleEscaped (w : Word)
  /-- After an unquoted `$`. -/
  | dollar (w : Word)
  /-- After a `$` between double quotes. -/
  | doubleDollar (w : Word)
  /-- Inside `$( … )`, `depth` parentheses deep, after `text`. -/
  | substitution (w : Word) (depth : Nat) (text : Text)
  /-- After the first character of an operator. -/
  | operator (first : Char)
  | comment

/-! ## The scanner -/

/-- The word is an unquoted number. -/
def isNumber (w : Word) : Bool :=
  w ≠ [] && w.all fun
    | .bare c => c.isDigit
    | _ => false

/-- The token of the word begun so far when `next` delimits it. -/
def delimit (w : Option Word) (next : Char) : List Token :=
  match w with
  | none => []
  | some w => if (next = '<' || next = '>') && isNumber w then [.ioNumber w] else [.word w]

/-- One character outside quotes. -/
def stepPlain (w : Option Word) (c : Char) : Option (List Token × State) :=
  if c = '\n' then some (delimit w c ++ [Token.newline], .plain none)
  else if c = ' ' || c = '\t' then some (delimit w c, .plain none)
  else if c = '(' || c = ')' then some (delimit w c ++ [Token.operator [c]], .plain none)
  else if c = ';' || c = '&' || c = '|' || c = '<' || c = '>' then
    some (delimit w c, .operator c)
  else if c = '\'' then some ([], .single (w.getD []))
  else if c = '"' then some ([], .double (w.getD []))
  else if c = '\\' then some ([], .escaped w)
  else if c = '$' then some ([], .dollar (w.getD []))
  else if c = '`' then none
  -- Only a `#` that would begin a word opens a comment.
  else if c = '#' && w.isNone then some ([], .comment)
  else some ([], .plain (some (w.getD [] ++ [WordChar.bare c])))

/-- The operators of two characters, here-documents apart. -/
def isOperatorPair (first second : Char) : Bool :=
  (first, second) ∈ [('&', '&'), ('|', '|'), (';', ';'), ('<', '&'), ('<', '>'), ('>', '>'),
    ('>', '&'), ('>', '|')]

/-- One character. -/
def step : State → Char → Option (List Token × State)
  | .plain w, c => stepPlain w c
  | .single w, c =>
      if c = '\'' then some ([], .plain (some w))
      else some ([], .single (w ++ [WordChar.literal c]))
  | .double w, c =>
      if c = '"' then some ([], .plain (some w))
      else if c = '\\' then some ([], .doubleEscaped w)
      else if c = '$' then some ([], .doubleDollar w)
      else if c = '`' then none
      else some ([], .double (w ++ [WordChar.double c]))
  | .escaped w, c =>
      -- A backslash before a newline joins the lines.
      if c = '\n' then some ([], .plain w)
      else some ([], .plain (some (w.getD [] ++ [WordChar.literal c])))
  | .doubleEscaped w, c =>
      if c = '\n' then some ([], .double w)
      else if c = '"' || c = '\\' || c = '$' || c = '`' then
        some ([], .double (w ++ [WordChar.literal c]))
      else some ([], .double (w ++ [WordChar.double '\\', .double c]))
  | .dollar w, c =>
      if c = '(' then some ([], .substitution w 0 [])
      else if c = '{' || c = '\'' || c = '"' then none
      else stepPlain (some (w ++ [WordChar.bare '$'])) c
  | .doubleDollar w, c =>
      if c = '(' || c = '{' || c = '`' || c = '\\' || c = '$' then none
      else if c = '"' then some ([], .plain (some (w ++ [WordChar.double '$'])))
      else some ([], .double (w ++ [WordChar.double '$', .double c]))
  | .substitution w depth text, c =>
      if c = ')' then
        match depth with
        | 0 => some ([], .plain (some (w ++ [WordChar.substitution text])))
        | d + 1 => some ([], .substitution w d (text ++ [c]))
      else if c = '(' then
        -- `$((` opens an arithmetic expansion.
        if text = [] then none else some ([], .substitution w (depth + 1) (text ++ [c]))
      else if c = '\'' || c = '"' || c = '\\' || c = '`' || c = '#' then none
      else some ([], .substitution w depth (text ++ [c]))
  | .operator first, c =>
      if isOperatorPair first c then some ([.operator [first, c]], .plain none)
      else if first = '<' && c = '<' then none
      else (stepPlain none c).map fun out => (.operator [first] :: out.1, out.2)
  | .comment, c =>
      if c = '\n' then some ([.newline], .plain none) else some ([], .comment)

/-- The tokens of the rest of a text, and where it leaves the scanner. -/
def scan : State → Text → Option (List Token × State)
  | s, [] => some ([], s)
  | s, c :: cs =>
      (step s c).bind fun out =>
        (scan out.2 cs).map fun rest => (out.1 ++ rest.1, rest.2)

/-- The tokens the end of the input completes. -/
def finish : State → Option (List Token)
  | .plain none => some []
  | .plain (some w) => some [.word w]
  | .dollar w => some [.word (w ++ [WordChar.bare '$'])]
  | .operator first => some [.operator [first]]
  | .comment => some []
  | _ => none

/-- The tokens of a text. -/
def tokens (t : Text) : Option (List Token) :=
  (scan (.plain none) t).bind fun out => (finish out.2).map fun last => out.1 ++ last

/-! ## Composition -/

/-- Read from `s`, the text gives the tokens `ts` and leaves the scanner in `s'`. -/
def Reads (s : State) (t : Text) (ts : List Token) (s' : State) : Prop :=
  scan s t = some (ts, s')

theorem scan_append (s : State) (a b : Text) :
    scan s (a ++ b) =
      (scan s a).bind fun out => (scan out.2 b).map fun rest => (out.1 ++ rest.1, rest.2) := by
  induction a generalizing s with
  | nil =>
    simp only [List.nil_append, scan, Option.bind_some]
    cases scan s b <;> rfl
  | cons c a ih =>
    simp only [List.cons_append, scan]
    cases step s c with
    | none => rfl
    | some out =>
      simp only [Option.bind_some, ih]
      cases scan out.2 a with
      | none => rfl
      | some mid =>
        simp only [Option.bind_some, Option.map_some, Option.map_map]
        cases scan mid.2 b with
        | none => rfl
        | some rest => simp only [Option.map_some, Function.comp, List.append_assoc]

theorem Reads.nil (s : State) : Reads s [] [] s := rfl

theorem Reads.append {s s₁ s₂ : State} {a b : Text} {ts us : List Token}
    (ha : Reads s a ts s₁) (hb : Reads s₁ b us s₂) : Reads s (a ++ b) (ts ++ us) s₂ := by
  unfold Reads at ha hb ⊢
  rw [scan_append, ha, Option.bind_some, hb, Option.map_some]

theorem Reads.cons {s s₁ s₂ : State} {c : Char} {t : Text} {ts us : List Token}
    (hc : step s c = some (ts, s₁)) (ht : Reads s₁ t us s₂) : Reads s (c :: t) (ts ++ us) s₂ := by
  unfold Reads at ht ⊢
  rw [scan, hc, Option.bind_some, ht, Option.map_some]

/-- A silent step. -/
theorem Reads.skip {s s₁ s₂ : State} {c : Char} {t : Text} {us : List Token}
    (hc : step s c = some ([], s₁)) (ht : Reads s₁ t us s₂) : Reads s (c :: t) us s₂ :=
  Reads.cons hc ht

/-! ## Words -/

/-- The characters that mean nothing to the scanner outside quotes. -/
def isPlain (c : Char) : Bool :=
  !([' ', '\t', '\n', '(', ')', ';', '&', '|', '<', '>', '\'', '"', '\\', '$', '`', '#'].contains c)

/-- A nonempty text of plain characters. -/
def PlainText (t : Text) : Prop := t ≠ [] ∧ ∀ c ∈ t, isPlain c = true

instance (t : Text) : Decidable (PlainText t) := by
  unfold PlainText
  infer_instance

theorem stepPlain_of_isPlain (w : Option Word) {c : Char} (hc : isPlain c = true) :
    stepPlain w c = some ([], .plain (some (w.getD [] ++ [WordChar.bare c]))) := by
  simp only [isPlain, Bool.not_eq_true', List.contains_eq_mem, decide_eq_false_iff_not,
    List.mem_cons, List.not_mem_nil, or_false, not_or] at hc
  simp [stepPlain, hc]

theorem Reads.bareFrom {t : Text} (ht : ∀ c ∈ t, isPlain c = true) (w : Word) :
    Reads (.plain (some w)) t [] (.plain (some (w ++ t.map .bare))) := by
  induction t generalizing w with
  | nil => simpa using Reads.nil (.plain (some w))
  | cons c t ih =>
    have hc : isPlain c = true := ht c List.mem_cons_self
    have hrest : ∀ d ∈ t, isPlain d = true := fun d hd => ht d (List.mem_cons_of_mem c hd)
    have htail := ih hrest (w ++ [WordChar.bare c])
    rw [List.append_assoc] at htail
    exact Reads.skip (stepPlain_of_isPlain (some w) hc) htail

/-- Plain text extends the word it stands in, or begins one. -/
theorem Reads.bare {t : Text} (ht : PlainText t) (w : Option Word) :
    Reads (.plain w) t [] (.plain (some (w.getD [] ++ t.map .bare))) := by
  obtain ⟨hne, hplain⟩ := ht
  cases t with
  | nil => exact absurd rfl hne
  | cons c t =>
    have hc : isPlain c = true := hplain c List.mem_cons_self
    have hrest : ∀ d ∈ t, isPlain d = true := fun d hd => hplain d (List.mem_cons_of_mem c hd)
    have htail := Reads.bareFrom hrest (w.getD [] ++ [WordChar.bare c])
    rw [List.append_assoc] at htail
    exact Reads.skip (stepPlain_of_isPlain w hc) htail

/-! ## Quoted text -/

/-- A text between single quotes, its own single quotes written `'\''`. -/
def quote (value : Text) : Text :=
  "'" ++ value.flatMap (fun c => if c = '\'' then "'\\''" else [c]) ++ "'"

theorem Reads.quotedChar (c : Char) (w : Word) :
    Reads (.single w) (if c = '\'' then "'\\''" else [c]) []
      (.single (w ++ [WordChar.literal c])) := by
  by_cases hc : c = '\''
  · rw [if_pos hc, hc]
    rfl
  · rw [if_neg hc]
    have hstep : step (.single w) c = some ([], .single (w ++ [WordChar.literal c])) := by
      simp only [step, if_neg hc]
    exact Reads.skip hstep (Reads.nil _)

theorem Reads.quotedChars (value : Text) (w : Word) :
    Reads (.single w) (value.flatMap fun c => if c = '\'' then "'\\''" else [c]) []
      (.single (w ++ value.map .literal)) := by
  induction value generalizing w with
  | nil => simpa using Reads.nil (.single w)
  | cons c value ih =>
    have htail := ih (w ++ [WordChar.literal c])
    rw [List.append_assoc] at htail
    rw [List.flatMap_cons]
    exact Reads.append (Reads.quotedChar c w) htail

/--
**A quoted text is literal.**

Wherever a word may stand, `quote value` is read as the characters of `value`,
all of them quoted, in the same word.
-/
theorem Reads.quote (value : Text) (w : Option Word) :
    Reads (.plain w) (quote value) [] (.plain (some (w.getD [] ++ value.map .literal))) := by
  have hopen : step (.plain w) '\'' = some ([], .single (w.getD [])) := rfl
  have hclose : Reads (.single (w.getD [] ++ value.map .literal)) ['\''] []
      (.plain (some (w.getD [] ++ value.map .literal))) := rfl
  have hbody := Reads.append (Reads.quotedChars value (w.getD [])) hclose
  exact Reads.skip hopen hbody

/-! ## Parameters and command substitutions -/

/-- The characters of a parameter name; `$?` is one, too. -/
def isNameChar (c : Char) : Bool := c.isAlphanum || c == '_' || c == '?'

/-- The name of a parameter. -/
def NameText (t : Text) : Prop := t ≠ [] ∧ ∀ c ∈ t, isNameChar c = true

instance (t : Text) : Decidable (NameText t) := by
  unfold NameText
  infer_instance

theorem ne_of_isNameChar {c d : Char} (hc : isNameChar c = true) (hd : isNameChar d = false) :
    c ≠ d := by
  intro h
  rw [h, hd] at hc
  cases hc

theorem isPlain_of_isNameChar {c : Char} (hc : isNameChar c = true) : isPlain c = true := by
  cases hplain : isPlain c with
  | true => rfl
  | false =>
    exfalso
    simp only [isPlain, Bool.not_eq_false', List.contains_eq_mem, decide_eq_true_eq,
      List.mem_cons, List.not_mem_nil, or_false] at hplain
    rcases hplain with h | h | h | h | h | h | h | h | h | h | h | h | h | h | h | h <;>
      exact ne_of_isNameChar hc (by decide) h

/-- `$name`, which the shell expands after the tokens are known. -/
theorem Reads.parameter {name : Text} (hname : NameText name) (w : Option Word) :
    Reads (.plain w) ('$' :: name) []
      (.plain (some (w.getD [] ++ .bare '$' :: name.map .bare))) := by
  obtain ⟨hne, hchars⟩ := hname
  cases name with
  | nil => exact absurd rfl hne
  | cons c name =>
    have hc : isNameChar c = true := hchars c List.mem_cons_self
    have hrest : ∀ d ∈ name, isPlain d = true :=
      fun d hd => isPlain_of_isNameChar (hchars d (List.mem_cons_of_mem c hd))
    have hdollar : step (.plain w) '$' = some ([], .dollar (w.getD [])) := rfl
    have hfirst : step (.dollar (w.getD [])) c =
        some ([], .plain (some (w.getD [] ++ [WordChar.bare '$'] ++ [WordChar.bare c]))) := by
      have hparen := ne_of_isNameChar hc (d := '(') (by decide)
      have hbrace := ne_of_isNameChar hc (d := '\x7b') (by decide)
      have hquote := ne_of_isNameChar hc (d := '\'') (by decide)
      have hdouble := ne_of_isNameChar hc (d := '"') (by decide)
      simp only [step, if_neg hparen, hbrace, hquote, hdouble, decide_false, Bool.or_self,
        Bool.false_eq_true, if_false]
      exact stepPlain_of_isPlain _ (isPlain_of_isNameChar hc)
    have htail := Reads.bareFrom hrest (w.getD [] ++ [WordChar.bare '$'] ++ [WordChar.bare c])
    have hread := Reads.skip hdollar (Reads.skip hfirst htail)
    simpa only [List.append_assoc, List.cons_append, List.nil_append, List.map_cons] using hread

theorem Reads.doubleName {name : Text} (hname : ∀ c ∈ name, isNameChar c = true) (w : Word) :
    Reads (.double w) name [] (.double (w ++ name.map .double)) := by
  induction name generalizing w with
  | nil => simpa using Reads.nil (.double w)
  | cons c name ih =>
    have hc : isNameChar c = true := hname c List.mem_cons_self
    have hstep : step (.double w) c = some ([], .double (w ++ [WordChar.double c])) := by
      have hquote := ne_of_isNameChar hc (d := '"') (by decide)
      have hback := ne_of_isNameChar hc (d := '\\') (by decide)
      have hdollar := ne_of_isNameChar hc (d := '$') (by decide)
      have htick := ne_of_isNameChar hc (d := '`') (by decide)
      simp only [step, if_neg hquote, if_neg hback, if_neg hdollar, if_neg htick]
    have htail := ih (fun d hd => hname d (List.mem_cons_of_mem c hd)) (w ++ [WordChar.double c])
    rw [List.append_assoc] at htail
    exact Reads.skip hstep htail

/-- `"$name"`. -/
theorem Reads.doubleParameter {name : Text} (hname : NameText name) (w : Option Word) :
    Reads (.plain w) ('"' :: '$' :: (name ++ ['"'])) []
      (.plain (some (w.getD [] ++ .double '$' :: name.map .double))) := by
  obtain ⟨hne, hchars⟩ := hname
  cases name with
  | nil => exact absurd rfl hne
  | cons c name =>
    have hc : isNameChar c = true := hchars c List.mem_cons_self
    have hrest : ∀ d ∈ name, isNameChar d = true :=
      fun d hd => hchars d (List.mem_cons_of_mem c hd)
    have hopen : step (.plain w) '"' = some ([], .double (w.getD [])) := rfl
    have hdollar : step (.double (w.getD [])) '$' = some ([], .doubleDollar (w.getD [])) := rfl
    have hfirst : step (.doubleDollar (w.getD [])) c =
        some ([], .double (w.getD [] ++ [WordChar.double '$', .double c])) := by
      have hparen := ne_of_isNameChar hc (d := '(') (by decide)
      have hbrace := ne_of_isNameChar hc (d := '\x7b') (by decide)
      have htick := ne_of_isNameChar hc (d := '`') (by decide)
      have hback := ne_of_isNameChar hc (d := '\\') (by decide)
      have hmore := ne_of_isNameChar hc (d := '$') (by decide)
      have hquote := ne_of_isNameChar hc (d := '"') (by decide)
      simp only [step, hparen, hbrace, htick, hback, hmore, hquote, decide_false, Bool.or_self,
        Bool.false_eq_true, if_false]
    have hbody := Reads.doubleName hrest (w.getD [] ++ [WordChar.double '$', .double c])
    have hclose :
        Reads (.double (w.getD [] ++ [WordChar.double '$', .double c] ++ name.map .double)) ['"']
          [] (.plain
            (some (w.getD [] ++ [WordChar.double '$', .double c] ++ name.map .double))) :=
      rfl
    have hread := Reads.skip hopen (Reads.skip hdollar
      (Reads.skip hfirst (Reads.append hbody hclose)))
    simpa only [List.append_assoc, List.cons_append, List.nil_append, List.map_cons] using hread

/-- The characters a substituted command may hold here. -/
def isCommandChar (c : Char) : Bool :=
  !(['(', ')', '\'', '"', '\\', '`', '#'].contains c)

theorem Reads.substitutionFrom {text : Text} (htext : ∀ c ∈ text, isCommandChar c = true)
    (w : Word) (before : Text) :
    Reads (.substitution w 0 before) (text ++ [')']) []
      (.plain (some (w ++ [WordChar.substitution (before ++ text)]))) := by
  induction text generalizing before with
  | nil =>
    rw [List.append_nil]
    rfl
  | cons c text ih =>
    have hc : isCommandChar c = true := htext c List.mem_cons_self
    simp only [isCommandChar, Bool.not_eq_true', List.contains_eq_mem,
      decide_eq_false_iff_not, List.mem_cons, List.not_mem_nil, or_false, not_or] at hc
    have hstep : step (.substitution w 0 before) c =
        some ([], .substitution w 0 (before ++ [c])) := by
      simp [step, hc]
    have htail := ih (fun d hd => htext d (List.mem_cons_of_mem c hd)) (before ++ [c])
    rw [List.append_assoc] at htail
    exact Reads.skip hstep htail

/-- `$(text)`. -/
theorem Reads.substitution {text : Text} (htext : ∀ c ∈ text, isCommandChar c = true)
    (w : Option Word) :
    Reads (.plain w) ('$' :: '(' :: (text ++ [')'])) []
      (.plain (some (w.getD [] ++ [WordChar.substitution text]))) := by
  have hdollar : step (.plain w) '$' = some ([], .dollar (w.getD [])) := rfl
  have hopen : step (.dollar (w.getD [])) '(' = some ([], .substitution (w.getD []) 0 []) := rfl
  exact Reads.skip hdollar (Reads.skip hopen (Reads.substitutionFrom htext (w.getD []) []))

/-! ## Complete words -/

/-- From a gap, the text gives the tokens `ts`, the last of them a word that the
next character may still end. -/
def Spells (t : Text) (ts : List Token) : Prop :=
  ∃ before w, Reads (.plain none) t before (.plain (some w)) ∧ ts = before ++ [Token.word w]

theorem Spells.tokens {t : Text} {ts : List Token} (h : Spells t ts) :
    tokens t = some ts := by
  obtain ⟨before, w, hread, rfl⟩ := h
  unfold Reads at hread
  rw [PosixTokens.tokens, hread, Option.bind_some]
  rfl

/-- A word of its own. -/
theorem Spells.word {t : Text} {w : Word}
    (h : ∀ w₀, Reads (.plain w₀) t [] (.plain (some (w₀.getD [] ++ w)))) : Spells t [.word w] :=
  ⟨[], w, h none, rfl⟩

/-- What follows a finished text is read from a gap, once `mid` has ended it. -/
theorem Spells.append {a mid b : Text} {ts us ms : List Token} (ha : Spells a ts)
    (hmid : ∀ w, Reads (.plain (some w)) mid (.word w :: ms) (.plain none)) (hb : Spells b us) :
    Spells (a ++ mid ++ b) (ts ++ ms ++ us) := by
  obtain ⟨before, w, hread, rfl⟩ := ha
  obtain ⟨before', w', hread', rfl⟩ := hb
  refine ⟨before ++ (.word w :: ms) ++ before', w',
    Reads.append (Reads.append hread (hmid w)) hread', ?_⟩
  simp only [List.append_assoc, List.cons_append, List.nil_append]

/-! ## Unquoted newlines -/

/-- From `s`, the text gives a newline token whatever follows it. -/
def BreaksFrom (s : State) (t : Text) : Prop :=
  ∀ out, scan s t = some out → .newline ∈ out.1

theorem BreaksFrom.append {s : State} {a : Text} (h : BreaksFrom s a) (b : Text) :
    BreaksFrom s (a ++ b) := by
  intro out hout
  rw [scan_append] at hout
  cases ha : scan s a with
  | none =>
    rw [ha] at hout
    cases hout
  | some first =>
    rw [ha, Option.bind_some] at hout
    obtain ⟨rest, _, rfl⟩ := Option.map_eq_some_iff.mp hout
    exact List.mem_append_left rest.1 (h first ha)

theorem BreaksFrom.after {s s₁ : State} {a b : Text} {ts : List Token} (ha : Reads s a ts s₁)
    (hb : BreaksFrom s₁ b) : BreaksFrom s (a ++ b) := by
  intro out hout
  unfold Reads at ha
  rw [scan_append, ha, Option.bind_some] at hout
  obtain ⟨rest, hrest, rfl⟩ := Option.map_eq_some_iff.mp hout
  exact List.mem_append_right ts (hb rest hrest)

/-- An unquoted newline is a token of its own. -/
theorem BreaksFrom.newline (w : Option Word) (t : Text) : BreaksFrom (.plain w) ('\n' :: t) := by
  have hnewline : Reads (.plain w) ['\n'] (delimit w '\n' ++ [Token.newline]) (.plain none) := by
    simp [Reads, scan, step, stepPlain]
  have hbreak : BreaksFrom (.plain w) ['\n'] := by
    intro out hout
    unfold Reads at hnewline
    rw [hnewline] at hout
    obtain rfl := Option.some.inj hout
    exact List.mem_append_right _ List.mem_cons_self
  exact hbreak.append t

theorem BreaksFrom.mem_tokens {t : Text} (h : BreaksFrom (.plain none) t) {ts : List Token}
    (hts : PosixTokens.tokens t = some ts) : .newline ∈ ts := by
  obtain ⟨out, hout, hlast⟩ := Option.bind_eq_some_iff.mp hts
  obtain ⟨last, _, rfl⟩ := Option.map_eq_some_iff.mp hlast
  exact List.mem_append_left last (h out hout)

end OpenWrtCopilot.Verified.PosixTokens
