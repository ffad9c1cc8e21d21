import OpenWrtCopilot.Verified.Hexdump
import OpenWrtCopilot.Ports.ManagementCommand

/-!
# Backups read back through `hexdump`

Ports `_parse_hexdump`, `router_hostname` and `build_backup`.  The archive
travels as the text of `hexdump -C`, from which the service rebuilds the bytes:
of every line with a bar it takes the pairs of hexadecimal digits before the
bar and drops the first four, which are the offset.

## Main results

* `parseRow_rowLine` — what a dump line is read as.
-/

namespace OpenWrtCopilot.Ports.Management

open Verified
open Verified.PyText
open Verified.Chunks
open Verified.Hexdump
open Verified.ShellList

variable {σ : Type}

/-! ## The reader -/

/-- The bytes of the tokens `re.findall(r"[0-9a-f]{2}", t)` finds. -/
def hexTokens : Text → List UInt8
  | a :: b :: rest =>
      match lowerHex a, lowerHex b with
      | some high, some low => UInt8.ofNat (16 * high + low) :: hexTokens rest
      | _, _ => hexTokens (b :: rest)
  | _ => []

/-- `_HEXDUMP_OFFSET_TOKENS`. -/
def hexdumpOffsetTokens : Nat := 4

/-- The bytes one line of the output contributes. -/
def parseRow (line : Text) : List UInt8 :=
  match splitFirst '|' line with
  | (left, some _) => (hexTokens left).drop hexdumpOffsetTokens
  | (_, none) => []

/-- `RouterManagementService._parse_hexdump`. -/
def parseHexdump (text : Text) : List UInt8 := (splitlines text).flatMap parseRow

/-! ## Building a backup -/

/-- The command `router_hostname` sends. -/
def hostnameCommand : Text :=
  "cat /etc/hostname 2>/dev/null || uci get system.@system[0].hostname 2>/dev/null " ++
    "|| echo router"

/-- `RouterManagementService.router_hostname`. -/
def routerHostname (link : RouterLink σ) : Op σ Text := do
  let result ← run link hostnameCommand none
  match splitlines (strip result.stdout) with
  | [] => return "router"
  | first :: _ => return strip first

/-- Make an archive, announce its size, dump it and remove it. -/
def archiveCommand (create remote : String) : Text :=
  create ++ " " ++ remote ++ " && echo '__AI_BYTES__='$(wc -c < " ++ remote ++
    ") && hexdump -C " ++ remote ++ " && rm -f " ++ remote

/-- The command used where `sysupgrade` is installed. -/
def sysupgradeBackup : Text := archiveCommand "sysupgrade -b" "/tmp/ai-sysupgrade-backup.tar.gz"

/-- The command used elsewhere: an archive of `/etc/config`. -/
def configBackup : Text :=
  "tar -czf /tmp/ai-config-backup.tar.gz /etc/config && echo '__AI_BYTES__='$(wc -c < " ++
    "/tmp/ai-config-backup.tar.gz) && hexdump -C /tmp/ai-config-backup.tar.gz && rm -f " ++
    "/tmp/ai-config-backup.tar.gz"

/-- `re.search(r"__AI_BYTES__=\d+", t)`. -/
def announcesBytes (t : Text) : Bool :=
  t.tails.any fun rest =>
    startsWith "__AI_BYTES__=" rest && (rest.drop 13).head?.any fun c => (digitValue c).isSome

/-- Run an archive command and decode what it prints. -/
def collectArchive (link : RouterLink σ) (command failure : Text) : Op σ (List UInt8) := do
  let step ← run link command (some 120)
  if !step.ok || !announcesBytes step.stdout then
    Fallible.raise (.management failure)
  return parseHexdump step.stdout

/-- The archive of `sysupgrade -b`, or of `/etc/config` where that is missing. -/
def collectBackup (link : RouterLink σ) : Op σ (List UInt8) := do
  let probe ← run link "command -v sysupgrade" none
  if probe.ok then
    collectArchive link sysupgradeBackup "sysupgrade -b produced no backup archive."
  else
    collectArchive link configBackup "backup generation failed on the router."

/-- `RouterManagementService.build_backup`, at the time the `timestamp` shows. -/
def buildBackup (link : RouterLink σ) (timestamp : Text) : Op σ (Text × List UInt8) :=
  withTransport link do
    let hostname ← routerHostname link
    let data ← collectBackup link
    if data = [] then
      Fallible.raise (.management "The backup archive came back empty.")
    return ("openwrt-" ++ hostname ++ "-backup-" ++ timestamp ++ ".tar.gz", data)

/-! ## Reading a dump line -/

theorem hexTokens_pair {a b : Char} {high low : Nat} (ha : lowerHex a = some high)
    (hb : lowerHex b = some low) (t : Text) :
    hexTokens (a :: b :: t) = UInt8.ofNat (16 * high + low) :: hexTokens t := by
  simp only [hexTokens, ha, hb]

theorem hexTokens_skip {a b : Char}
    (h : ∀ high low, lowerHex a = some high → lowerHex b = some low → False) (t : Text) :
    hexTokens (a :: b :: t) = hexTokens (b :: t) := by
  cases ha : lowerHex a with
  | none => simp only [hexTokens, ha]
  | some high =>
    cases hb : lowerHex b with
    | none => simp only [hexTokens, ha, hb]
    | some low => exact absurd hb (h high low ha)

theorem hexTokens_cons_of_none {c : Char} (hc : lowerHex c = none) (t : Text) :
    hexTokens (c :: t) = hexTokens t := by
  cases t with
  | nil => rfl
  | cons b rest =>
    refine hexTokens_skip ?_ rest
    intro high low hhigh
    rw [hc] at hhigh
    cases hhigh

/-- No token crosses a character that is no hexadecimal digit. -/
theorem hexTokens_append_cons {c : Char} (hc : lowerHex c = none) (a t : Text) :
    hexTokens (a ++ c :: t) = hexTokens a ++ hexTokens t := by
  induction a using hexTokens.induct with
  | case1 x y rest high low hy hx ih =>
    rw [List.cons_append, List.cons_append, hexTokens_pair hx hy, hexTokens_pair hx hy, ih]
    rfl
  | case2 x y rest hskip ih =>
    rw [List.cons_append, List.cons_append, hexTokens_skip hskip, hexTokens_skip hskip,
      ← List.cons_append]
    exact ih
  | case3 a hshort =>
    match a, hshort with
    | [], _ => exact hexTokens_cons_of_none hc t
    | [x], _ =>
      have hskip : ∀ high low, lowerHex x = some high → lowerHex c = some low → False := by
        intro high low _ hlow
        rw [hc] at hlow
        cases hlow
      rw [List.cons_append, List.nil_append, hexTokens_skip hskip,
        hexTokens_cons_of_none hc]
      rfl
    | x :: y :: rest, hshort => exact absurd rfl (hshort x y rest)

/-- A word of hexadecimal digits gives a token for every two of them. -/
theorem length_hexTokens {word : Text} (h : ∀ c ∈ word, (lowerHex c).isSome = true) :
    (hexTokens word).length = word.length / 2 := by
  induction word using hexTokens.induct with
  | case1 x y rest high low hy hx ih =>
    have hrest : ∀ c ∈ rest, (lowerHex c).isSome = true :=
      fun c hc => h c (List.mem_cons_of_mem x (List.mem_cons_of_mem y hc))
    rw [hexTokens_pair hx hy, List.length_cons, ih hrest, List.length_cons, List.length_cons]
    omega
  | case2 x y rest hskip ih =>
    obtain ⟨high, hhigh⟩ := Option.isSome_iff_exists.mp (h x List.mem_cons_self)
    obtain ⟨low, hlow⟩ := Option.isSome_iff_exists.mp
      (h y (List.mem_cons_of_mem x List.mem_cons_self))
    exact absurd hlow (hskip high low hhigh)
  | case3 a hshort =>
    match a, hshort with
    | [], _ => rfl
    | [x], _ => simp [hexTokens]
    | x :: y :: rest, hshort => exact absurd rfl (hshort x y rest)

theorem hexTokens_hexByte (b : UInt8) (t : Text) :
    hexTokens (hexByte b ++ t) = b :: hexTokens t := by
  have hvalue : UInt8.ofNat (16 * (b.toNat / 16) + b.toNat % 16) = b := by
    rw [Nat.div_add_mod]
    exact UInt8.ofNat_toNat
  rw [hexByte, List.cons_append, List.cons_append, List.nil_append,
    hexTokens_pair (lowerHex_hexByte_fst b) (lowerHex_hexByte_snd b), hvalue]

theorem hexTokens_cells (width : Nat) (bs : List UInt8) (t : Text) (h : bs.length ≤ width) :
    hexTokens (cells width bs ++ t) = bs ++ hexTokens t := by
  have hblank : lowerHex ' ' = none := by decide
  induction width, bs using cells.induct with
  | case1 bs =>
    rw [List.length_eq_zero_iff.mp (Nat.le_zero.mp h)]
    rfl
  | case2 width ih =>
    rw [cells, List.cons_append, List.cons_append, List.cons_append,
      hexTokens_cons_of_none hblank, hexTokens_cons_of_none hblank,
      hexTokens_cons_of_none hblank]
    exact ih (Nat.zero_le width)
  | case3 width b bs ih =>
    rw [List.length_cons] at h
    rw [cells, List.append_assoc, hexTokens_hexByte, List.cons_append,
      hexTokens_cons_of_none hblank, ih (by omega)]
    rfl

/-- A dump line is read as the tokens of its offset followed by its row, less
the first four. -/
theorem parseRow_rowLine (offset : Nat) (row : List UInt8) (hrow : row.length ≤ 16) :
    parseRow (rowLine offset row) =
      (hexTokens (offsetText offset) ++ row).drop hexdumpOffsetTokens := by
  have hblank : lowerHex ' ' = none := by decide
  have hleft : ∀ c ∈ rowHead offset row, c ≠ '|' := fun c hc => (plain_of_mem_rowHead hc).2
  have htake : (row.take 8).length ≤ 8 := by
    rw [List.length_take]
    omega
  have hdrop : (row.drop 8).length ≤ 8 := by
    rw [List.length_drop]
    omega
  have htokens : hexTokens (rowHead offset row) = hexTokens (offsetText offset) ++ row := by
    rw [rowHead, hexTokens_append_cons hblank, hexTokens_cons_of_none hblank,
      hexTokens_cells 8 _ _ htake, hexTokens_cons_of_none hblank, hexTokens_cells 8 _ _ hdrop,
      hexTokens_cons_of_none hblank, show hexTokens [] = [] from rfl, List.append_nil,
      List.take_append_drop]
  unfold parseRow
  rw [rowLine, splitFirst_append_cons hleft]
  show (hexTokens (rowHead offset row)).drop hexdumpOffsetTokens = _
  rw [htokens]

/-! ## Reading a dump -/

theorem length_hexTokens_offsetText (offset : Nat) :
    (hexTokens (offsetText offset)).length = (offsetText offset).length / 2 :=
  length_hexTokens fun _ hc => lowerHex_of_mem_offsetText hc

/-- Eight or nine digits make four tokens. -/
theorem length_hexTokens_offsetText_of_lt {offset : Nat} (h : offset < 16 ^ 9) :
    (hexTokens (offsetText offset)).length = hexdumpOffsetTokens := by
  have hdigits : (Nat.toDigits 16 offset).length ≤ 9 :=
    (Nat.length_toDigits_le_iff (by decide) (by decide)).mpr h
  rw [length_hexTokens_offsetText, offsetText, List.length_append, List.length_replicate]
  show _ = 4
  omega

/-- Ten digits make five. -/
theorem length_hexTokens_offsetText_of_le {offset : Nat} (h : 16 ^ 9 ≤ offset) :
    hexdumpOffsetTokens < (hexTokens (offsetText offset)).length := by
  have hdigits : ¬(Nat.toDigits 16 offset).length ≤ 9 := by
    rw [Nat.length_toDigits_le_iff (by decide) (by decide)]
    omega
  rw [length_hexTokens_offsetText, offsetText, List.length_append, List.length_replicate]
  show 4 < _
  omega

theorem parseRow_rowLine_of_lt {offset : Nat} {row : List UInt8} (hrow : row.length ≤ 16)
    (h : offset < 16 ^ 9) : parseRow (rowLine offset row) = row := by
  rw [parseRow_rowLine offset row hrow, ← length_hexTokens_offsetText_of_lt h,
    List.drop_left]

theorem length_parseRow_rowLine (offset : Nat) {row : List UInt8} (hrow : row.length ≤ 16) :
    (parseRow (rowLine offset row)).length =
      (hexTokens (offsetText offset)).length + row.length - hexdumpOffsetTokens := by
  rw [parseRow_rowLine offset row hrow, List.length_drop, List.length_append]

theorem parseRow_of_no_bar {line : Text} (h : ∀ c ∈ line, c ≠ '|') : parseRow line = [] := by
  unfold parseRow
  rw [splitFirst_of_not_mem h]

/-- The rows with offsets below `16 ^ 9` are read as the rows that are shown. -/
theorem parse_rowLines {index : Nat} {previous : Option (List UInt8)} {starred : Bool}
    {rows : List (List UInt8)} (hrows : ∀ row ∈ rows, row.length ≤ 16)
    (hindex : index + rows.length ≤ 16 ^ 8) :
    (rowLines index previous starred rows).flatMap parseRow = (kept previous rows).flatten := by
  induction rows generalizing index previous starred with
  | nil => rfl
  | cons row rows ih =>
    have hrow : row.length ≤ 16 := hrows row List.mem_cons_self
    have htail : ∀ other ∈ rows, other.length ≤ 16 :=
      fun other hother => hrows other (List.mem_cons_of_mem row hother)
    rw [List.length_cons] at hindex
    have hnext : index + 1 + rows.length ≤ 16 ^ 8 := by omega
    unfold rowLines kept
    split
    · have hstar : (if starred then [] else [['*']]).flatMap parseRow = [] := by
        cases starred <;> rfl
      rw [List.flatMap_append, hstar, List.nil_append]
      exact ih htail hnext
    · have hoffset : 16 * index < 16 ^ 9 := by
        have hpow : (16 : Nat) ^ 9 = 16 * 16 ^ 8 := by decide
        omega
      rw [List.flatMap_cons, parseRow_rowLine_of_lt hrow hoffset, ih htail hnext,
        List.flatten_cons]

/-- Where no row repeats, no row loses bytes. -/
theorem length_le_parse_rowLines {index : Nat} {row : List UInt8} {rows : List (List UInt8)}
    (hrows : ∀ other ∈ rows, other.length ≤ 16) (hfresh : (row :: rows).IsChain Fresh) :
    rows.flatten.length ≤
      ((rowLines index (some row) false rows).flatMap parseRow).length := by
  induction rows generalizing index row with
  | nil => simp
  | cons next rows ih =>
    have hnext : next.length ≤ 16 := hrows next List.mem_cons_self
    have htail : ∀ other ∈ rows, other.length ≤ 16 :=
      fun other hother => hrows other (List.mem_cons_of_mem next hother)
    rw [List.isChain_cons_cons] at hfresh
    have hrepeat : ¬(next.length = 16 ∧ some row = some next) := by
      intro ⟨hlen, heq⟩
      exact hfresh.1 ⟨hlen, Option.some.inj heq⟩
    have hrest : rows.flatten.length ≤
        ((rowLines (index + 1) (some next) false rows).flatMap parseRow).length :=
      ih htail hfresh.2
    have hline := length_parseRow_rowLine (16 * index) hnext
    have htokens : hexdumpOffsetTokens ≤ (hexTokens (offsetText (16 * index))).length := by
      by_cases hsmall : 16 * index < 16 ^ 9
      · rw [length_hexTokens_offsetText_of_lt hsmall]
      · exact (length_hexTokens_offsetText_of_le (by omega)).le
    rw [rowLines, if_neg hrepeat, List.flatMap_cons, List.length_append, List.flatten_cons,
      List.length_append]
    omega

/-- And rows with offsets from `16 ^ 9` on gain some. -/
theorem length_lt_parse_rowLines {index : Nat} {row : List UInt8} {rows : List (List UInt8)}
    (hrows : ∀ other ∈ rows, other.length ≤ 16) (hfresh : (row :: rows).IsChain Fresh)
    (hne : rows ≠ []) (hindex : 16 ^ 8 < index + rows.length) :
    rows.flatten.length <
      ((rowLines index (some row) false rows).flatMap parseRow).length := by
  induction rows generalizing index row with
  | nil => exact absurd rfl hne
  | cons next rows ih =>
    have hnext : next.length ≤ 16 := hrows next List.mem_cons_self
    have htail : ∀ other ∈ rows, other.length ≤ 16 :=
      fun other hother => hrows other (List.mem_cons_of_mem next hother)
    rw [List.isChain_cons_cons] at hfresh
    have hrepeat : ¬(next.length = 16 ∧ some row = some next) := by
      intro ⟨hlen, heq⟩
      exact hfresh.1 ⟨hlen, Option.some.inj heq⟩
    have hline := length_parseRow_rowLine (16 * index) hnext
    have hpow : (16 : Nat) ^ 9 = 16 * 16 ^ 8 := by decide
    rw [List.length_cons] at hindex
    rw [rowLines, if_neg hrepeat, List.flatMap_cons, List.length_append, List.flatten_cons,
      List.length_append]
    by_cases hsmall : 16 * index < 16 ^ 9
    · have htokens := length_hexTokens_offsetText_of_lt hsmall
      have hmore : rows ≠ [] := by
        rintro rfl
        rw [List.length_nil] at hindex
        omega
      have hrest : rows.flatten.length <
          ((rowLines (index + 1) (some next) false rows).flatMap parseRow).length :=
        ih htail hfresh.2 hmore (by omega)
      omega
    · have htokens := length_hexTokens_offsetText_of_le (Nat.le_of_not_lt hsmall)
      have hrest : rows.flatten.length ≤
          ((rowLines (index + 1) (some next) false rows).flatMap parseRow).length :=
        length_le_parse_rowLines htail hfresh.2
      omega

/-! ## Reading an archive back -/

/-- What an archive command prints for an archive of the bytes `d`. -/
def archiveOutput (d : List UInt8) : Text :=
  unlines (("__AI_BYTES__=" ++ natText d.length) :: dump d)

theorem plain_of_mem_announcement {n : Nat} {c : Char}
    (h : c ∈ "__AI_BYTES__=".toList ++ natText n) : isLineBoundary c = false ∧ c ≠ '|' := by
  rw [List.mem_append] at h
  rcases h with hpre | hdigit
  · have hall : ∀ c ∈ "__AI_BYTES__=".toList, isLineBoundary c = false ∧ c ≠ '|' := by decide
    exact hall c hpre
  · have hrange := range_of_mem_natText hdigit
    refine ⟨isLineBoundary_of_printable (by omega) (by omega), ?_⟩
    rintro rfl
    exact absurd hrange (by decide)

theorem singleLine_of_mem_archiveOutput (d : List UInt8) :
    ∀ line ∈ ("__AI_BYTES__=".toList ++ natText d.length) :: dump d, SingleLine line := by
  intro line hline
  rw [List.mem_cons] at hline
  rcases hline with rfl | hdump
  · exact fun c hc => (plain_of_mem_announcement hc).1
  · exact singleLine_of_mem_dump line hdump

/-- The rows of an archive that are shown in its dump are what is read back, as
long as nine digits are enough for every offset. -/
theorem parseHexdump_archiveOutput (d : List UInt8) :
    parseHexdump (archiveOutput d) = (rowLines 0 none false (chunks 16 d)).flatMap parseRow := by
  have hheader : parseRow ("__AI_BYTES__=".toList ++ natText d.length) = [] :=
    parseRow_of_no_bar fun c hc => (plain_of_mem_announcement hc).2
  have hlast : (if d = [] then [] else [offsetText d.length]).flatMap parseRow = [] := by
    by_cases hd : d = []
    · rw [if_pos hd]
      rfl
    · have hnobar : parseRow (offsetText d.length) = [] :=
        parseRow_of_no_bar fun c hc =>
          (printable_of_lowerHex (lowerHex_of_mem_offsetText hc)).2.2
      rw [if_neg hd, List.flatMap_cons, hnobar]
      rfl
  rw [parseHexdump, archiveOutput, splitlines_unlines (singleLine_of_mem_archiveOutput d),
    List.flatMap_cons, hheader, List.nil_append, dump, List.flatMap_append, hlast,
    List.append_nil]

theorem length_of_mem_rows {d row : List UInt8} {rows : List (List UInt8)}
    (h : chunks 16 d = row :: rows) :
    row.length ≤ 16 ∧ ∀ other ∈ rows, other.length ≤ 16 := by
  have hall := length_of_mem_chunks (show 0 < 16 by decide) d
  rw [h] at hall
  exact ⟨(hall row List.mem_cons_self).2,
    fun other hother => (hall other (List.mem_cons_of_mem row hother)).2⟩

/-- An archive of at most `2 ^ 36` bytes is read back exactly when no full row
of it repeats the row before. -/
theorem parse_archive_eq_iff {d : List UInt8} (hlen : d.length ≤ 2 ^ 36) :
    parseHexdump (archiveOutput d) = d ↔ NoRepeatedRow d := by
  rw [parseHexdump_archiveOutput, NoRepeatedRow]
  have hflat := flatten_chunks (show 0 < 16 by decide) d
  have hcount := length_chunks (show 0 < 16 by decide) d
  cases hrows : chunks 16 d with
  | nil =>
    rw [hrows] at hflat
    rw [← hflat]
    exact ⟨fun _ => List.IsChain.nil, fun _ => rfl⟩
  | cons row rows =>
    have hfirst : ¬(row.length = 16 ∧ none = some row) := fun h => nomatch h.2
    have hparse : (rowLines 0 none false (row :: rows)).flatMap parseRow =
        (kept none (row :: rows)).flatten := by
      refine parse_rowLines ?_ ?_
      · intro other hother
        rw [← hrows] at hother
        exact (length_of_mem_chunks (by decide) d other hother).2
      · rw [← hrows, hcount]
        omega
    rw [hrows, List.flatten_cons] at hflat
    rw [hparse, kept, if_neg hfirst, List.flatten_cons]
    constructor
    · intro heq
      by_contra hrepeat
      have hlt := length_flatten_kept_lt hrepeat
      have hsame : row ++ (kept (some row) rows).flatten = row ++ rows.flatten :=
        heq.trans hflat.symm
      rw [List.append_cancel_left hsame] at hlt
      omega
    · intro hfresh
      rw [kept_eq_self hfresh]
      exact hflat

/-- Of a longer one without repeated rows too many bytes are read. -/
theorem length_lt_parse_archive {d : List UInt8} (hlen : 2 ^ 36 < d.length)
    (hfresh : NoRepeatedRow d) : d.length < (parseHexdump (archiveOutput d)).length := by
  rw [parseHexdump_archiveOutput]
  have hflat := flatten_chunks (show 0 < 16 by decide) d
  have hcount := length_chunks (show 0 < 16 by decide) d
  unfold NoRepeatedRow at hfresh
  cases hrows : chunks 16 d with
  | nil =>
    rw [hrows, List.length_nil] at hcount
    omega
  | cons row rows =>
    have hfirst : ¬(row.length = 16 ∧ none = some row) := fun h => nomatch h.2
    obtain ⟨hrow, htail⟩ := length_of_mem_rows hrows
    rw [hrows, List.length_cons] at hcount
    rw [hrows] at hfresh
    have hne : rows ≠ [] := by
      rintro rfl
      rw [List.length_nil] at hcount
      omega
    have hrest : rows.flatten.length <
        ((rowLines (0 + 1) (some row) false rows).flatMap parseRow).length :=
      length_lt_parse_rowLines htail hfresh hne (by omega)
    have hhead : parseRow (rowLine (16 * 0) row) = row :=
      parseRow_rowLine_of_lt hrow (by decide)
    have hsplit : d.length = row.length + rows.flatten.length := by
      rw [← hflat, hrows, List.flatten_cons, List.length_append]
    rw [rowLines, if_neg hfirst, List.flatMap_cons, hhead, List.length_append, hsplit]
    omega

/-! ## Backups -/

/-- Whenever the router answers one of the two archive commands, it answers with
the dump of `d`, wrapped as every answer is. -/
def HoldsArchive (link : RouterLink σ) (d : List UInt8) : Prop :=
  ∀ command, command = sysupgradeBackup ∨ command = configBackup →
    ∀ timeout s output s', link.exec (wrapCommand command) timeout s = (.ok output, s') →
      output = archiveOutput d ++ '\n' :: (exitSentinel ++ "0\n")

/-- Every backup of an archive `d` that is returned at all is `d`. -/
def BackupFaithful (d : List UInt8) : Prop :=
  ∀ (σ : Type) (link : RouterLink σ), HoldsArchive link d →
    ∀ timestamp s filename data,
      (buildBackup link timestamp s).1 = .ok (filename, data) → data = d

/-- The archive as it comes out of the command runner. -/
theorem stdout_readAnswer_archive (command : Text) (d : List UInt8) :
    (readAnswer command (archiveOutput d ++ '\n' :: (exitSentinel ++ "0\n"))).stdout =
      archiveOutput d := by
  rw [readAnswer_wrapper_output]
  exact join_splitlines_newline (onlyNewlines_unlines (singleLine_of_mem_archiveOutput d))

/-- A collected archive is the reading of the dump. -/
theorem collectArchive_eq_ok {link : RouterLink σ} {d : List UInt8} (hd : HoldsArchive link d)
    {command failure : Text} (hcommand : command = sysupgradeBackup ∨ command = configBackup)
    {s : σ} {data : List UInt8} (h : (collectArchive link command failure s).1 = .ok data) :
    data = parseHexdump (archiveOutput d) := by
  unfold collectArchive at h
  obtain ⟨step, s', hstep, hdata⟩ := Fallible.fst_bind_eq_ok h
  unfold run at hstep
  cases hexec : link.exec (wrapCommand command) (some 120) s with
  | mk answer s'' =>
    rw [hexec] at hstep
    cases answer with
    | error message =>
      have hfailed : step.ok = false := by
        rw [← Except.ok.inj (Prod.mk.inj hstep).1]
      simp only [hfailed, Bool.not_false, Bool.true_or, if_true] at hdata
      cases hdata
    | ok output =>
      have hresult : step = readAnswer command output :=
        (Except.ok.inj (Prod.mk.inj hstep).1).symm
      have hstdout : step.stdout = archiveOutput d := by
        rw [hresult, hd command hcommand _ _ _ _ hexec, stdout_readAnswer_archive]
      split at hdata
      · cases hdata
      · rw [hstdout] at hdata
        exact (Except.ok.inj hdata).symm

theorem collectBackup_eq_ok {link : RouterLink σ} {d : List UInt8} (hd : HoldsArchive link d)
    {s : σ} {data : List UInt8} (h : (collectBackup link s).1 = .ok data) :
    data = parseHexdump (archiveOutput d) := by
  obtain ⟨probe, s', _, hcollect⟩ := Fallible.fst_bind_eq_ok h
  by_cases hok : probe.ok = true
  · rw [if_pos hok] at hcollect
    exact collectArchive_eq_ok hd (Or.inl rfl) hcollect
  · rw [if_neg hok] at hcollect
    exact collectArchive_eq_ok hd (Or.inr rfl) hcollect

/-- A returned backup is the reading of the dump. -/
theorem buildBackup_eq_ok {link : RouterLink σ} {d : List UInt8} (hd : HoldsArchive link d)
    {timestamp filename : Text} {s : σ} {data : List UInt8}
    (h : (buildBackup link timestamp s).1 = .ok (filename, data)) :
    data = parseHexdump (archiveOutput d) := by
  unfold buildBackup withTransport at h
  obtain ⟨_, opened, _, hbody⟩ := Fallible.fst_bind_eq_ok h
  rw [Fallible.ensuring_apply] at hbody
  obtain ⟨hostname, s1, _, hcollect⟩ := Fallible.fst_bind_eq_ok hbody
  obtain ⟨collected, s2, hcollected, hreturn⟩ := Fallible.fst_bind_eq_ok hcollect
  have hread : collected = parseHexdump (archiveOutput d) :=
    collectBackup_eq_ok hd (congrArg Prod.fst hcollected)
  split at hreturn
  · cases hreturn
  · rw [← hread]
    exact (Prod.mk.inj (Except.ok.inj hreturn)).2.symm

/-- A router whose archive commands dump `d` and whose other commands print
nothing. -/
def archiveShell (d : List UInt8) : RemoteShell Unit := fun command _ =>
  { state := ()
    output := if command = sysupgradeBackup ∨ command = configBackup then archiveOutput d else []
    status := 0 }

theorem holdsArchive_archiveShell (d : List UInt8) :
    HoldsArchive (shellLink (archiveShell d)) d := by
  intro command hcommand timeout s output s' hexec
  have hwrapped : (shellLink (archiveShell d)).exec (wrapCommand command) timeout s =
      (.ok ((archiveShell d command s).output ++ '\n' :: (exitSentinel ++ "0\n")), ()) := by
    simp only [shellLink, unwrapCommand_wrapCommand, wrapper_output]
  rw [hwrapped] at hexec
  have houtput : (archiveShell d command s).output = archiveOutput d := if_pos hcommand
  rw [← Except.ok.inj (Prod.mk.inj hexec).1, houtput]

theorem announcesBytes_archiveOutput (d : List UInt8) :
    announcesBytes (archiveOutput d) = true := by
  obtain ⟨digit, rest, hdigits⟩ : ∃ digit rest, natText d.length = digit :: rest :=
    List.exists_cons_of_ne_nil Nat.toDigits_ne_nil
  have hisDigit : digit.isDigit = true := by
    have hmem : digit ∈ natText d.length := by
      rw [hdigits]
      exact List.mem_cons_self
    exact Nat.isDigit_of_mem_toDigits (by decide) (by decide) hmem
  have hvalue : (digitValue digit).isSome = true := digitValue_isSome_of_isDigit hisDigit
  rw [announcesBytes, List.any_eq_true]
  refine ⟨archiveOutput d, (List.mem_tails _ _).mpr List.suffix_rfl, ?_⟩
  rw [archiveOutput, unlines_cons, hdigits]
  simp [startsWith, hvalue]

/-- The first row is always shown. -/
theorem parse_archive_ne_nil {d : List UInt8} (hd : d ≠ []) :
    parseHexdump (archiveOutput d) ≠ [] := by
  have hcut := chunks_of_ne_nil (show 0 < 16 by decide) hd
  obtain ⟨hrow, _⟩ := length_of_mem_rows hcut
  have hfirst : ¬((d.take 16).length = 16 ∧ none = some (d.take 16)) := fun h => nomatch h.2
  have hhead : parseRow (rowLine (16 * 0) (d.take 16)) = d.take 16 :=
    parseRow_rowLine_of_lt hrow (by decide)
  rw [parseHexdump_archiveOutput, hcut, rowLines, if_neg hfirst, List.flatMap_cons, hhead]
  intro hnil
  have htake : d.take 16 = [] := (List.append_eq_nil_iff.mp hnil).1
  rw [List.take_eq_nil_iff] at htake
  rcases htake with hzero | hempty
  · exact absurd hzero (by decide)
  · exact hd hempty

theorem run_archiveShell (d : List UInt8) {command : Text}
    (hcommand : command = sysupgradeBackup ∨ command = configBackup) (timeout : Option Nat) :
    run (shellLink (archiveShell d)) command timeout () =
      (.ok { command := command
             ok := true
             stdout := archiveOutput d
             exitCode := 0
             error := none }, ()) := by
  have houtput : (archiveShell d command ()).output = archiveOutput d := if_pos hcommand
  have hstdout : join "\n" (splitlines (archiveOutput d ++ ['\n'])) = archiveOutput d :=
    join_splitlines_newline (onlyNewlines_unlines (singleLine_of_mem_archiveOutput d))
  rw [run_shellLink, houtput, hstdout]

theorem collectArchive_of_answer {link : RouterLink σ} {command : Text} (failure : Text)
    {step : CommandResult} {s s' : σ} (hrun : run link command (some 120) s = (.ok step, s'))
    (hok : step.ok = true) (hannounced : announcesBytes step.stdout = true) :
    collectArchive link command failure s = (.ok (parseHexdump step.stdout), s') := by
  rw [collectArchive, Fallible.bind_of_ok hrun]
  simp only [hok, hannounced, Bool.not_true, Bool.or_self, Bool.false_eq_true, if_false]
  rfl

theorem routerHostname_returns (link : RouterLink σ) (s : σ) :
    ∃ hostname s', routerHostname link s = (.ok hostname, s') := by
  obtain ⟨result, s', hrun⟩ := run_returns link _ none s
  rw [routerHostname, Fallible.bind_of_ok hrun]
  cases splitlines (strip result.stdout) with
  | nil => exact ⟨_, _, rfl⟩
  | cons first rest => exact ⟨_, _, rfl⟩

/-- A backup succeeds on that router, and returns the reading of the dump. -/
theorem buildBackup_archiveShell {d : List UInt8} (hd : d ≠ []) (timestamp : Text) :
    ∃ filename, (buildBackup (shellLink (archiveShell d)) timestamp ()).1 =
      .ok (filename, parseHexdump (archiveOutput d)) := by
  have hopen : openSession (shellLink (archiveShell d)) () = (.ok (), ()) := rfl
  obtain ⟨hostname, s, hname⟩ := routerHostname_returns (shellLink (archiveShell d)) ()
  have hcollect : collectBackup (shellLink (archiveShell d)) s =
      (.ok (parseHexdump (archiveOutput d)), ()) := by
    rw [collectBackup, Fallible.bind_of_ok (run_shellLink _ _ _ _), if_pos rfl]
    exact collectArchive_of_answer _ (run_archiveShell d (Or.inl rfl) _) rfl
      (announcesBytes_archiveOutput d)
  rw [buildBackup, withTransport, Fallible.bind_of_ok hopen, Fallible.ensuring_apply,
    Fallible.bind_of_ok hname, Fallible.bind_of_ok hcollect, if_neg (parse_archive_ne_nil hd)]
  exact ⟨_, rfl⟩

/-- Backups of an archive are faithful exactly when its dump is read back as the
archive. -/
theorem backupFaithful_iff_parse (d : List UInt8) :
    BackupFaithful d ↔ parseHexdump (archiveOutput d) = d := by
  constructor
  · intro hfaithful
    by_cases hd : d = []
    · rw [hd, parseHexdump_archiveOutput, chunks_nil]
      rfl
    · obtain ⟨filename, hbackup⟩ := buildBackup_archiveShell hd []
      exact hfaithful Unit (shellLink (archiveShell d)) (holdsArchive_archiveShell d) _ _ _ _
        hbackup
  · intro hparse σ link hholds timestamp s filename data hbackup
    rw [buildBackup_eq_ok hholds hbackup, hparse]

/--
**A backup comes back unchanged exactly when no row repeats.**

Up to `2 ^ 36` bytes, where nine digits are enough for every offset; a longer
archive without repeated rows comes back with bytes of its offsets mixed in.
-/
theorem backupFaithful_iff (d : List UInt8) :
    (d.length ≤ 2 ^ 36 → (BackupFaithful d ↔ NoRepeatedRow d)) ∧
      (2 ^ 36 < d.length → NoRepeatedRow d → ¬BackupFaithful d) := by
  constructor
  · intro hlen
    rw [backupFaithful_iff_parse, parse_archive_eq_iff hlen]
  · intro hlen hfresh
    rw [backupFaithful_iff_parse]
    intro hparse
    have hlt := length_lt_parse_archive hlen hfresh
    rw [hparse] at hlt
    exact absurd hlt (Nat.lt_irrefl _)

/-- The two magic bytes of a gzip file come back. -/
theorem magic_backup_faithful : BackupFaithful [0x1f, 0x8b] := by
  have hrows : chunks 16 [(0x1f : UInt8), 0x8b] = [[0x1f, 0x8b]] := by
    simp [chunks]
  refine ((backupFaithful_iff [0x1f, 0x8b]).1 (by decide)).mpr ?_
  rw [NoRepeatedRow, hrows]
  exact List.isChain_singleton _

/-- Of thirty-two zero bytes a backup keeps sixteen. -/
theorem zeros_backup_not_faithful : ¬BackupFaithful (List.replicate 32 0) := by
  rw [backupFaithful_iff_parse]
  intro hparse
  have hlen : (parseHexdump (archiveOutput (List.replicate 32 0))).length = 32 := by
    rw [hparse]
    rfl
  have hrows : chunks 16 (List.replicate 32 (0 : UInt8)) =
      [List.replicate 16 0, List.replicate 16 0] := by
    simp [chunks]
  rw [parseHexdump_archiveOutput, hrows] at hlen
  exact absurd hlen (by decide)

end OpenWrtCopilot.Ports.Management
