import OpenWrtCopilot.Verified.PySplit
import OpenWrtCopilot.Verified.PyWords
import OpenWrtCopilot.Ports.ManagementFirewall
import OpenWrtCopilot.Ports.ManagementReads

/-!
# The storage view

`storage` reads one output for block devices, `df` and `/proc/mounts`.  Every line of
the `df` part with six words is a mount, its header included, and a device counts as
mounted when its path begins the source of a mount.

## Main results

* `storageParts_gathered` — how the output of the gather command is read.
* `storageView_gathered` — the view of it.
-/

namespace OpenWrtCopilot.Ports.Management

open Verified
open Verified.PyText
open Verified.PySplit
open Verified.PyDict

/-! ## The parts of the output -/

/-- A block device, as its line tells it. -/
structure StorageBlock where
  name : Text
  sectors : Text
  devtype : Text
  removable : Bool
  devnodes : Text
  vendor : Text
  model : Text

/-- A row of `df`, in bytes. -/
structure DfUsage where
  device : Text
  totalBytes : Int
  usedBytes : Int
  availableBytes : Int
  usePercent : Option Int
  mountpoint : Text

/-- A line of `/proc/mounts`. -/
structure ProcMount where
  device : Text
  mountpoint : Text
  filesystem : Text
  options : Text

inductive StorageSection where
  | block
  | df
  | mount

/-- What has been read of the output. -/
structure StorageParts where
  reading : StorageSection
  blocks : List StorageBlock
  dfRows : List DfUsage
  mountsProc : List ProcMount

/-- What every line of a block device begins with, before a blank. -/
def blockTag : Text := "__AI_BLOCK__"

def blockPrefix : Text := "__AI_BLOCK__ "

/-- The device of a stripped line, if it has seven fields. -/
def storageBlock (stripped : Text) : Option StorageBlock :=
  match (stripped.drop blockPrefix.length).splitOn '|' with
  | name :: sectors :: devtype :: removable :: devnodes :: vendor :: model :: _ =>
      some
        { name := name
          sectors := if sectors ≠ [] ∧ sectors.all isDigit then sectors else "0".toList
          devtype := devtype
          removable := removable = "1".toList
          devnodes := devnodes
          vendor := strip vendor
          model := strip model }
  | _ => none

/-- `_int(value) or 0` in bytes. -/
def kibibytes (raw : Text) : Except ServiceError Int := do
  let n ← countOf raw
  return n.getD 0 * 1024

/-- The fifth column: a number before `%`. -/
def usePercent (column : Text) : Except ServiceError (Option Int) :=
  if column.getLast? = some '%' then countOf column.dropLast else .ok none

/-- `_parse_df_row`. -/
def parseDfRow (line : Text) : Except ServiceError (Option DfUsage) :=
  match words line with
  | device :: total :: used :: available :: percent :: first :: rest => do
      let percent ← usePercent percent
      let total ← kibibytes total
      let used ← kibibytes used
      let available ← kibibytes available
      return some
        { device := device
          totalBytes := total
          usedBytes := used
          availableBytes := available
          usePercent := percent
          mountpoint := join " " (first :: rest) }
  | _ => .ok none

/-- The first four of at most five words. -/
def procMount (stripped : Text) : Option ProcMount :=
  match words stripped with
  | device :: mountpoint :: filesystem :: options :: _ =>
      some { device, mountpoint, filesystem, options }
  | _ => none

/-- One line of the output.  `rstrip("\r")` before `strip()` takes nothing that `strip()`
would leave. -/
def StorageParts.readLine (s : StorageParts) (line : Text) : Except ServiceError StorageParts :=
  let stripped := strip line
  if stripped = "__AI_DF__".toList then .ok { s with reading := .df }
  else if stripped = "__AI_MOUNT__".toList then .ok { s with reading := .mount }
  else if startsWith blockPrefix stripped then
    .ok { s with blocks := s.blocks ++ (storageBlock stripped).toList }
  else
    match s.reading with
    | .block => .ok s
    | .df => do
        let row ← parseDfRow stripped
        return { s with dfRows := s.dfRows ++ row.toList }
    | .mount => .ok { s with mountsProc := s.mountsProc ++ (procMount stripped).toList }

def storageParts (output : Text) : Except ServiceError StorageParts :=
  (splitlines output).foldlM StorageParts.readLine ⟨.block, [], [], []⟩

/-! ## The view -/

structure StorageMount where
  device : Text
  mountpoint : Text
  filesystem : Text
  options : Text
  totalBytes : Int
  usedBytes : Int
  availableBytes : Int
  usePercent : Option Int
  overlay : Bool
  rootfs : Bool

structure StorageDevice where
  name : Text
  type : Text
  vendor : Text
  model : Text
  size : Int
  status : Text

structure UsbStorage where
  device : Text
  vendor : Text
  model : Text
  capacity : Int
  mounted : Bool
  mountpoint : Option Text

/-- What `storage` returns, without its time stamp. -/
structure StorageView where
  devices : List StorageDevice
  mounts : List StorageMount
  usb : List UsbStorage
  rootfs : Option StorageMount
  overlayfs : Option StorageMount
  totalBytes : Option Int
  usedBytes : Option Int
  availableBytes : Option Int
  usePercent : Option Int

/-- The first line of every mountpoint. -/
def mountLookup (mountsProc : List ProcMount) : Dict Text ProcMount :=
  mountsProc.foldl (fun lookup m => PyDict.setdefault m.mountpoint m lookup) []

def storageMount (lookup : Dict Text ProcMount) (row : DfUsage) : StorageMount :=
  let info := PyDict.get? row.mountpoint lookup
  let filesystem := (info.map ProcMount.filesystem).getD []
  { device := row.device
    mountpoint := row.mountpoint
    filesystem := filesystem
    options := (info.map ProcMount.options).getD []
    totalBytes := row.totalBytes
    usedBytes := row.usedBytes
    availableBytes := row.availableBytes
    usePercent := row.usePercent
    overlay := (contains "/" row.device && contains "overlay" (lowerAscii row.device)) ||
      filesystem = "overlay".toList || row.mountpoint = "/overlay".toList
    rootfs := row.mountpoint = "/".toList || filesystem = "rootfs".toList }

/-- `/dev/<name>`. -/
def devPath (name : Text) : Text := "/dev/" ++ name

/-- `_device_mounted`. -/
def deviceMounted (mounts : List StorageMount) (name : Text) : Bool :=
  mounts.any fun m => startsWith (devPath name) m.device

/-- `_mounted_mountpoint`. -/
def mountedMountpoint (mounts : List StorageMount) (name : Text) : Option Text :=
  (mounts.find? fun m => startsWith (devPath name) m.device).map StorageMount.mountpoint

/-- `int(blk["sectors"])`. -/
def sectorCount (b : StorageBlock) : Except ServiceError Int := do
  let n ← intOf b.sectors
  return n.getD 0

def storageDevice (mounts : List StorageMount) (b : StorageBlock) :
    Except ServiceError StorageDevice := do
  let sectors ← sectorCount b
  return {
    name := b.name
    type :=
      if startsWith "mmcblk" b.name then "eMMC / SD".toList
      else if b.removable then "USB storage".toList
      else "Disk".toList
    vendor := b.vendor
    model := b.model
    size := sectors * 512
    status := if deviceMounted mounts b.name then "mounted".toList else "online".toList }

def usbStorage (mounts : List StorageMount) (b : StorageBlock) :
    Except ServiceError UsbStorage := do
  let sectors ← sectorCount b
  return {
    device := b.name
    vendor := b.vendor
    model := b.model
    capacity := sectors * 512
    mounted := deviceMounted mounts b.name
    mountpoint := mountedMountpoint mounts b.name }

/-- `RouterManagementService.storage`, as a function of the gathered output. -/
def storageView (output : Text) : Except ServiceError StorageView := do
  let parts ← storageParts output
  let mounts := parts.dfRows.map (storageMount (mountLookup parts.mountsProc))
  let devices ← parts.blocks.mapM (storageDevice mounts)
  let usb ← (parts.blocks.filter StorageBlock.removable).mapM (usbStorage mounts)
  let root := mounts.find? StorageMount.rootfs
  return {
    devices := devices
    mounts := mounts
    usb := usb
    rootfs := root
    overlayfs := mounts.find? StorageMount.overlay
    totalBytes := root.map StorageMount.totalBytes
    usedBytes := root.map StorageMount.usedBytes
    availableBytes := root.map StorageMount.availableBytes
    usePercent := root.bind StorageMount.usePercent }

/-! ## What the router prints -/

/-- A text `int` reads when `isdigit` holds of it. -/
def Readable (raw : Text) : Prop :=
  raw ≠ [] → raw.all isDigit = true → (pyInt raw).isSome = true

instance (raw : Text) : Decidable (Readable raw) := by
  unfold Readable
  infer_instance

/-- A block device the router lists. -/
structure BlockDevice where
  name : Text
  sectors : Nat
  devtype : Text
  removable : Text
  devnodes : Text
  vendor : Text
  model : Text
  /-- No `|` in the fields before the vendor. -/
  fields : ∀ field ∈ [name, devtype, removable, devnodes], '|' ∉ field
  singleLine : ∀ field ∈ [name, devtype, removable, devnodes, vendor, model], SingleLine field
  counted : sectors < 10 ^ maxStrDigits

/-- What stands before the model. -/
def BlockDevice.front (b : BlockDevice) : Text :=
  blockPrefix ++ (b.name ++ '|' :: (natText b.sectors ++ '|' :: (b.devtype ++
    '|' :: (b.removable ++ '|' :: (b.devnodes ++ '|' :: b.vendor)))))

/-- The line that is printed for it. -/
def BlockDevice.line (b : BlockDevice) : Text := b.front ++ '|' :: b.model

/-- A row of `df`: five columns and a mountpoint of one or more words. -/
structure DfRow where
  device : Text
  total : Text
  used : Text
  available : Text
  percent : Text
  mountpoint : List Text
  line : Text
  reads : words line = device :: total :: used :: available :: percent :: mountpoint
  somewhere : mountpoint ≠ []
  singleLine : SingleLine line
  counted : ∀ column ∈ [total, used, available, percent.dropLast], Readable column

/-- The words of the header of `df -k`. -/
def dfHeader : List Text :=
  ["Filesystem", "1K-blocks", "Used", "Available", "Use%", "Mounted", "on"]

/-- The output of the gather command. -/
structure Gathered where
  blocks : List BlockDevice
  header : Text
  rows : List DfRow
  entries : List Text
  isHeader : words header = dfHeader
  headerLine : SingleLine header
  /-- The lines of `/proc/mounts` have several words. -/
  isEntry : ∀ entry ∈ entries, SingleLine entry ∧ 2 ≤ (words entry).length

def Gathered.lines (g : Gathered) : List Text :=
  g.blocks.map BlockDevice.line ++ ("__AI_DF__".toList :: g.header :: g.rows.map DfRow.line) ++
    "__AI_MOUNT__".toList :: g.entries

def Gathered.text (g : Gathered) : Text := unlines g.lines

/-- No mount has the tag of the gather command for its source. -/
structure Gathered.Untagged (g : Gathered) : Prop where
  rows : ∀ row ∈ g.rows, row.device ≠ blockTag
  entries : ∀ entry ∈ g.entries, (words entry).head? ≠ some blockTag

/-! ## Reading the lines -/

/-- The number a text has, if it is one. -/
def countIn (raw : Text) : Option Int :=
  if raw ≠ [] ∧ raw.all isDigit = true then pyInt raw else none

theorem countOf_of_readable {raw : Text} (h : Readable raw) : countOf raw = .ok (countIn raw) := by
  rw [countOf, countIn]
  split_ifs with hdigits
  · obtain ⟨n, hn⟩ := Option.isSome_iff_exists.mp (h hdigits.1 hdigits.2)
    rw [intOf, hn]
  · rfl

/-- The usage a row tells. -/
def DfRow.usage (row : DfRow) : DfUsage where
  device := row.device
  totalBytes := (countIn row.total).getD 0 * 1024
  usedBytes := (countIn row.used).getD 0 * 1024
  availableBytes := (countIn row.available).getD 0 * 1024
  usePercent := if row.percent.getLast? = some '%' then countIn row.percent.dropLast else none
  mountpoint := join " " row.mountpoint

theorem parseDfRow_line (row : DfRow) : parseDfRow (strip row.line) = .ok (some row.usage) := by
  obtain ⟨first, rest, hmountpoint⟩ := List.exists_cons_of_ne_nil row.somewhere
  have htotal := countOf_of_readable (row.counted row.total (by simp))
  have hused := countOf_of_readable (row.counted row.used (by simp))
  have havailable := countOf_of_readable (row.counted row.available (by simp))
  have hpercent : usePercent row.percent =
      .ok (if row.percent.getLast? = some '%' then countIn row.percent.dropLast else none) := by
    rw [usePercent, countOf_of_readable (row.counted row.percent.dropLast (by simp))]
    split_ifs <;> rfl
  rw [parseDfRow, words_strip, row.reads, hmountpoint]
  simp only [hpercent, kibibytes, htotal, hused, havailable, DfRow.usage, hmountpoint]
  rfl

/-- The mount that the header becomes. -/
def headerUsage : DfUsage where
  device := "Filesystem"
  totalBytes := 0
  usedBytes := 0
  availableBytes := 0
  usePercent := none
  mountpoint := "Mounted on"

theorem parseDfRow_header {header : Text} (h : words header = dfHeader) :
    parseDfRow (strip header) = .ok (some headerUsage) := by
  rw [parseDfRow, words_strip, h]
  rfl

/-- The line is taken for that of a block device. -/
def tagged (line : Text) : Bool := startsWith blockPrefix (strip line)

theorem head?_words_of_tagged {line : Text} (h : tagged line = true) :
    (words line).head? = some blockTag := by
  obtain ⟨rest, hrest⟩ := List.isPrefixOf_iff_prefix.mp h
  have hline : strip line = blockTag ++ ' ' :: rest := hrest.symm
  rw [← words_strip, hline, words_append_space (by decide)]
  rfl

/-- A line of several words is no marker of a part. -/
theorem readLine_of_words (s : StorageParts) {line : Text} (h : 2 ≤ (words line).length) :
    s.readLine line =
      if tagged line then .ok { s with blocks := s.blocks ++ (storageBlock (strip line)).toList }
      else
        match s.reading with
        | .block => .ok s
        | .df => do
          let row ← parseDfRow (strip line)
          return { s with dfRows := s.dfRows ++ row.toList }
        | .mount =>
          .ok { s with mountsProc := s.mountsProc ++ (procMount (strip line)).toList } := by
  have hmarker : ∀ marker, words marker = [marker] → strip line ≠ marker := by
    rintro marker hmarker rfl
    rw [words_strip] at hmarker
    rw [hmarker] at h
    exact absurd h (by simp)
  rw [StorageParts.readLine, if_neg (hmarker _ (by decide)), if_neg (hmarker _ (by decide))]
  rfl

theorem DfRow.two_words (row : DfRow) : 2 ≤ (words row.line).length := by
  rw [row.reads]
  simp

theorem foldlM_cons_of_ok {ε σ α : Type} {f : σ → α → Except ε σ} {s s' : σ} {x : α}
    (h : f s x = .ok s') (rest : List α) : (x :: rest).foldlM f s = rest.foldlM f s' := by
  rw [List.foldlM_cons, h]
  rfl

theorem readLine_tagged (s : StorageParts) {line : Text} (hwords : 2 ≤ (words line).length)
    (h : tagged line = true) :
    s.readLine line = .ok { s with blocks := s.blocks ++ (storageBlock (strip line)).toList } := by
  rw [readLine_of_words s hwords, if_pos h]

theorem readLine_row {s : StorageParts} (hreading : s.reading = .df) {line : Text}
    (hwords : 2 ≤ (words line).length) (h : tagged line = false) {usage : DfUsage}
    (husage : parseDfRow (strip line) = .ok (some usage)) :
    s.readLine line = .ok { s with dfRows := s.dfRows ++ [usage] } := by
  rw [readLine_of_words s hwords, h, hreading, husage]
  rfl

theorem readLine_entry {s : StorageParts} (hreading : s.reading = .mount) {line : Text}
    (hwords : 2 ≤ (words line).length) (h : tagged line = false) :
    s.readLine line =
      .ok { s with mountsProc := s.mountsProc ++ (procMount (strip line)).toList } := by
  rw [readLine_of_words s hwords, h, hreading]
  rfl

/-- The rows that are not taken for block devices are filed. -/
theorem foldlM_rows (rows : List DfRow) {s : StorageParts} (h : s.reading = .df) :
    (rows.map DfRow.line).foldlM StorageParts.readLine s = .ok
      { s with
        blocks := s.blocks ++
          (rows.filter fun row => tagged row.line).flatMap fun row =>
            (storageBlock (strip row.line)).toList
        dfRows := s.dfRows ++ (rows.filter fun row => !tagged row.line).map DfRow.usage } := by
  induction rows generalizing s with
  | nil => simp [pure, Except.pure]
  | cons row rows ih =>
    rw [List.map_cons]
    cases htagged : tagged row.line with
    | true =>
      rw [foldlM_cons_of_ok (readLine_tagged s row.two_words htagged), ih]
      · simp [htagged]
      · exact h
    | false =>
      rw [foldlM_cons_of_ok (readLine_row h row.two_words htagged (parseDfRow_line row)), ih]
      · simp [htagged]
      · exact h

/-- So are the lines of `/proc/mounts`. -/
theorem foldlM_entries {entries : List Text}
    (hentries : ∀ entry ∈ entries, SingleLine entry ∧ 2 ≤ (words entry).length)
    {s : StorageParts} (h : s.reading = .mount) :
    entries.foldlM StorageParts.readLine s = .ok
      { s with
        blocks := s.blocks ++
          (entries.filter tagged).flatMap fun entry => (storageBlock (strip entry)).toList
        mountsProc := s.mountsProc ++
          (entries.filter fun entry => !tagged entry).flatMap fun entry =>
            (procMount (strip entry)).toList } := by
  induction entries generalizing s with
  | nil => simp [pure, Except.pure]
  | cons entry entries ih =>
    obtain ⟨hentry, hrest⟩ := List.forall_mem_cons.mp hentries
    cases htagged : tagged entry with
    | true =>
      rw [foldlM_cons_of_ok (readLine_tagged s hentry.2 htagged), ih hrest]
      · simp [htagged]
      · exact h
    | false =>
      rw [foldlM_cons_of_ok (readLine_entry h hentry.2 htagged), ih hrest]
      · simp [htagged]
      · exact h

/-! ## Block devices -/

/-- What follows the device number. -/
def BlockDevice.tail (b : BlockDevice) : List Text :=
  b.vendor.splitOn '|' ++ (rstrip b.model).splitOn '|'

/-- The device its line tells. -/
def BlockDevice.told (b : BlockDevice) : StorageBlock where
  name := b.name
  sectors := natText b.sectors
  devtype := b.devtype
  removable := b.removable = "1".toList
  devnodes := b.devnodes
  vendor := strip (b.tail.headD [])
  model := strip (b.tail.getD 1 [])

theorem rstrip_append_cons {c : Char} (hc : isSpace c = false) (a b : Text) :
    rstrip (a ++ c :: b) = a ++ c :: rstrip b := by
  have hstop : (c :: a.reverse).dropWhile isSpace = c :: a.reverse := by
    rw [List.dropWhile_cons_of_neg (by simp [hc])]
  rw [rstrip, rstrip, List.rdropWhile, List.reverse_append, List.reverse_cons, List.append_assoc,
    List.singleton_append, List.dropWhile_append, hstop, List.rdropWhile]
  split
  · next hempty =>
      rw [List.isEmpty_iff.mp hempty]
      simp
  · simp

theorem strip_blockLine (b : BlockDevice) : strip b.line = b.front ++ '|' :: rstrip b.model := by
  have hbegin : lstrip b.line = b.line := rfl
  rw [strip, hbegin, BlockDevice.line, rstrip_append_cons (by decide)]

theorem all_isDigit_natText (n : Nat) : (natText n).all isDigit = true := by
  rw [List.all_eq_true]
  intro c hc
  have hdigit : c.isDigit = true := Nat.isDigit_of_mem_toDigits (by decide) (by decide) hc
  rw [isDigit, Option.isSome_iff_ne_none.mpr, Bool.true_or]
  exact Option.isSome_iff_ne_none.mp (digitValue_isSome_of_isDigit hdigit)

/-- The fields of a device are found in its line. -/
theorem storageBlock_line (b : BlockDevice) : storageBlock (strip b.line) = some b.told := by
  obtain ⟨hname, htype, hremovable, hnodes⟩ :
      '|' ∉ b.name ∧ '|' ∉ b.devtype ∧ '|' ∉ b.removable ∧ '|' ∉ b.devnodes :=
    ⟨b.fields _ (by simp), b.fields _ (by simp), b.fields _ (by simp), b.fields _ (by simp)⟩
  have hsectors : '|' ∉ natText b.sectors := by
    intro hmem
    exact absurd (range_of_mem_natText hmem).2 (by decide)
  obtain ⟨vendor, vendors, hvendor⟩ :=
    List.exists_cons_of_ne_nil (List.splitOnP_ne_nil (· == '|') b.vendor)
  obtain ⟨model, models, hmodel⟩ :=
    List.exists_cons_of_ne_nil (List.splitOnP_ne_nil (· == '|') (rstrip b.model))
  have hdrop : (strip b.line).drop blockPrefix.length =
      b.name ++ '|' :: (natText b.sectors ++ '|' :: (b.devtype ++ '|' :: (b.removable ++
        '|' :: (b.devnodes ++ '|' :: (b.vendor ++ '|' :: rstrip b.model))))) := by
    rw [strip_blockLine, BlockDevice.front, List.append_assoc, List.drop_left]
    simp
  have hparts : ((strip b.line).drop blockPrefix.length).splitOn '|' =
      b.name :: natText b.sectors :: b.devtype :: b.removable :: b.devnodes :: b.tail := by
    rw [hdrop, parts_append, parts_append, parts_append, parts_append, parts_append, parts_append,
      parts_of_notMem hname, parts_of_notMem hsectors, parts_of_notMem htype,
      parts_of_notMem hremovable, parts_of_notMem hnodes]
    rfl
  have htail : ∃ vendor model rest, b.tail = vendor :: model :: rest := by
    have hjoined : b.tail = (vendor :: vendors) ++ (model :: models) := by
      rw [← hvendor, ← hmodel]
      rfl
    cases vendors with
    | nil => exact ⟨vendor, model, models, hjoined⟩
    | cons next vendors => exact ⟨vendor, next, vendors ++ model :: models, hjoined⟩
  obtain ⟨vendor, model, rest, htail⟩ := htail
  have hdigits : natText b.sectors ≠ [] ∧ (natText b.sectors).all isDigit = true :=
    ⟨(word_natText b.sectors).1, all_isDigit_natText b.sectors⟩
  rw [storageBlock, hparts, htail, BlockDevice.told, htail]
  simp only [if_pos hdigits]
  rfl

theorem tagged_blockLine (b : BlockDevice) : tagged b.line = true := by
  rw [tagged, strip_blockLine, BlockDevice.front, List.append_assoc, startsWith_append]

theorem readLine_blockLine (s : StorageParts) (b : BlockDevice) :
    s.readLine b.line = .ok { s with blocks := s.blocks ++ [b.told] } := by
  have hmarker : ∀ marker, startsWith blockPrefix marker = false → strip b.line ≠ marker := by
    rintro marker hmarker rfl
    exact absurd (tagged_blockLine b) (by rw [tagged, hmarker]; decide)
  have htagged : startsWith blockPrefix (strip b.line) = true := tagged_blockLine b
  rw [StorageParts.readLine, if_neg (hmarker _ (by decide)), if_neg (hmarker _ (by decide)),
    if_pos htagged, storageBlock_line]
  rfl

theorem foldlM_blocks (blocks : List BlockDevice) (s : StorageParts) :
    (blocks.map BlockDevice.line).foldlM StorageParts.readLine s =
      .ok { s with blocks := s.blocks ++ blocks.map BlockDevice.told } := by
  induction blocks generalizing s with
  | nil => simp [pure, Except.pure]
  | cons b blocks ih =>
    rw [List.map_cons, foldlM_cons_of_ok (readLine_blockLine s b), ih]
    simp

/-! ## Reading the output -/

/-- What is read of the output. -/
def Gathered.parts (g : Gathered) : StorageParts where
  reading := .mount
  blocks := g.blocks.map BlockDevice.told ++
    ((g.rows.filter fun row => tagged row.line).flatMap fun row =>
      (storageBlock (strip row.line)).toList) ++
    (g.entries.filter tagged).flatMap fun entry => (storageBlock (strip entry)).toList
  dfRows := headerUsage :: (g.rows.filter fun row => !tagged row.line).map DfRow.usage
  mountsProc := (g.entries.filter fun entry => !tagged entry).flatMap fun entry =>
    (procMount (strip entry)).toList

theorem BlockDevice.singleLine_line (b : BlockDevice) : SingleLine b.line := by
  have hfield : ∀ field ∈ [b.name, b.devtype, b.removable, b.devnodes, b.vendor, b.model],
      ∀ c ∈ field, isLineBoundary c = false := b.singleLine
  have hsectors : ∀ c ∈ natText b.sectors, isLineBoundary c = false := by
    intro c hc
    obtain ⟨hlo, hhi⟩ := range_of_mem_natText hc
    exact isLineBoundary_of_printable (by omega) (by omega)
  have hprefix : ∀ c ∈ blockPrefix, isLineBoundary c = false := by decide
  intro c hc
  simp only [BlockDevice.line, BlockDevice.front, List.mem_append, List.mem_cons] at hc
  simp only [List.forall_mem_cons] at hfield
  obtain ⟨hname, htype, hremovable, hnodes, hvendor, hmodel, _⟩ := hfield
  obtain ((hc | hc | rfl | hc | rfl | hc | rfl | hc | rfl | hc | rfl | hc) | rfl | hc) := hc
  · exact hprefix c hc
  · exact hname c hc
  · decide
  · exact hsectors c hc
  · decide
  · exact htype c hc
  · decide
  · exact hremovable c hc
  · decide
  · exact hnodes c hc
  · decide
  · exact hvendor c hc
  · decide
  · exact hmodel c hc

theorem Gathered.singleLine_lines (g : Gathered) : ∀ line ∈ g.lines, SingleLine line := by
  intro line hline
  simp only [Gathered.lines, List.mem_append, List.mem_cons, List.mem_map] at hline
  obtain (⟨b, _, rfl⟩ | rfl | rfl | ⟨row, _, rfl⟩) | rfl | hentry := hline
  · exact b.singleLine_line
  · decide
  · exact g.headerLine
  · exact row.singleLine
  · decide
  · exact (g.isEntry line hentry).1

theorem tagged_header {header : Text} (h : words header = dfHeader) : tagged header = false := by
  rw [Bool.eq_false_iff]
  intro htagged
  have hhead := head?_words_of_tagged htagged
  rw [h] at hhead
  exact absurd hhead (by decide)

/-- The output of the gather command is read. -/
theorem storageParts_gathered (g : Gathered) : storageParts g.text = .ok g.parts := by
  have hheader : 2 ≤ (words g.header).length := by
    rw [g.isHeader]
    decide
  have hdf : StorageParts.readLine ⟨.block, g.blocks.map BlockDevice.told, [], []⟩ "__AI_DF__" =
      .ok ⟨.df, g.blocks.map BlockDevice.told, [], []⟩ := rfl
  rw [storageParts, Gathered.text, splitlines_unlines g.singleLine_lines, Gathered.lines,
    List.foldlM_append, List.foldlM_append, foldlM_blocks]
  show ((("__AI_DF__".toList :: g.header :: g.rows.map DfRow.line).foldlM StorageParts.readLine
    ⟨.block, g.blocks.map BlockDevice.told, [], []⟩).bind fun s =>
      ("__AI_MOUNT__".toList :: g.entries).foldlM StorageParts.readLine s) = _
  rw [foldlM_cons_of_ok hdf,
    foldlM_cons_of_ok (readLine_row rfl hheader (tagged_header g.isHeader)
      (parseDfRow_header g.isHeader)), foldlM_rows g.rows rfl]
  show ("__AI_MOUNT__".toList :: g.entries).foldlM StorageParts.readLine _ = _
  rw [foldlM_cons_of_ok rfl, foldlM_entries g.isEntry rfl]
  rfl

/-! ## The mounts -/

/-- The mounts of the output. -/
def Gathered.mounts (g : Gathered) : List StorageMount :=
  g.parts.dfRows.map (storageMount (mountLookup g.parts.mountsProc))

theorem storageView_eq (g : Gathered) :
    storageView g.text = do
      let devices ← g.parts.blocks.mapM (storageDevice g.mounts)
      let usb ← (g.parts.blocks.filter StorageBlock.removable).mapM (usbStorage g.mounts)
      let root := g.mounts.find? StorageMount.rootfs
      return {
        devices := devices
        mounts := g.mounts
        usb := usb
        rootfs := root
        overlayfs := g.mounts.find? StorageMount.overlay
        totalBytes := root.map StorageMount.totalBytes
        usedBytes := root.map StorageMount.usedBytes
        availableBytes := root.map StorageMount.availableBytes
        usePercent := root.bind StorageMount.usePercent } := by
  rw [storageView, storageParts_gathered]
  rfl

/-- Whatever the devices, the mounts are those of the `df` part. -/
theorem mounts_of_storageView {g : Gathered} {view : StorageView}
    (h : storageView g.text = .ok view) : view.mounts = g.mounts := by
  rw [storageView_eq] at h
  cases hdevices : g.parts.blocks.mapM (storageDevice g.mounts) with
  | error e =>
    rw [hdevices] at h
    cases h
  | ok devices =>
    rw [hdevices] at h
    cases husb : (g.parts.blocks.filter StorageBlock.removable).mapM (usbStorage g.mounts) with
    | error e =>
      rw [husb] at h
      cases h
    | ok usb =>
      rw [husb] at h
      cases h
      rfl

theorem Gathered.devices_mounts (g : Gathered) :
    g.mounts.map StorageMount.device = headerUsage.device ::
      (g.rows.filter fun row => !tagged row.line).map DfRow.device := by
  rw [Gathered.mounts, List.map_map, Gathered.parts, List.map_cons, List.map_map]
  rfl

/-! ## The devices -/

theorem sectorCount_told (b : BlockDevice) : sectorCount b.told = .ok b.sectors := by
  have hread : pyInt (natText b.sectors) = some (b.sectors : Int) :=
    pyInt_intText (p := (b.sectors : Int)) (by simpa using b.counted)
  rw [sectorCount, BlockDevice.told, intOf, hread]
  rfl

/-- The device that is shown. -/
def BlockDevice.shown (mounts : List StorageMount) (b : BlockDevice) : StorageDevice where
  name := b.name
  type :=
    if startsWith "mmcblk" b.name then "eMMC / SD".toList
    else if b.told.removable then "USB storage".toList
    else "Disk".toList
  vendor := b.told.vendor
  model := b.told.model
  size := b.sectors * 512
  status := if deviceMounted mounts b.name then "mounted".toList else "online".toList

/-- The removable device that is shown. -/
def BlockDevice.shownUsb (mounts : List StorageMount) (b : BlockDevice) : UsbStorage where
  device := b.name
  vendor := b.told.vendor
  model := b.told.model
  capacity := b.sectors * 512
  mounted := deviceMounted mounts b.name
  mountpoint := mountedMountpoint mounts b.name

theorem storageDevice_told (mounts : List StorageMount) (b : BlockDevice) :
    storageDevice mounts b.told = .ok (b.shown mounts) := by
  rw [storageDevice, sectorCount_told]
  rfl

theorem usbStorage_told (mounts : List StorageMount) (b : BlockDevice) :
    usbStorage mounts b.told = .ok (b.shownUsb mounts) := by
  rw [usbStorage, sectorCount_told]
  rfl

theorem tagged_row {g : Gathered} (hg : g.Untagged) {row : DfRow} (hrow : row ∈ g.rows) :
    tagged row.line = false := by
  rw [Bool.eq_false_iff]
  intro htagged
  have hhead := head?_words_of_tagged htagged
  rw [row.reads, List.head?_cons, Option.some.injEq] at hhead
  exact hg.rows row hrow hhead

theorem tagged_entry {g : Gathered} (hg : g.Untagged) {entry : Text} (hentry : entry ∈ g.entries) :
    tagged entry = false :=
  Bool.eq_false_iff.mpr fun htagged => hg.entries entry hentry (head?_words_of_tagged htagged)

theorem Gathered.Untagged.blocks {g : Gathered} (hg : g.Untagged) :
    g.parts.blocks = g.blocks.map BlockDevice.told := by
  have hrows : (g.rows.filter fun row => tagged row.line) = [] :=
    List.filter_eq_nil_iff.mpr fun row hrow => by rw [tagged_row hg hrow]; decide
  have hentries : g.entries.filter tagged = [] :=
    List.filter_eq_nil_iff.mpr fun entry hentry => by rw [tagged_entry hg hentry]; decide
  rw [Gathered.parts, hrows, hentries, List.flatMap_nil, List.flatMap_nil, List.append_nil,
    List.append_nil]

theorem Gathered.Untagged.dfRows {g : Gathered} (hg : g.Untagged) :
    g.parts.dfRows = headerUsage :: g.rows.map DfRow.usage := by
  have hrows : (g.rows.filter fun row => !tagged row.line) = g.rows :=
    List.filter_eq_self.mpr fun row hrow => by rw [tagged_row hg hrow]; rfl
  rw [Gathered.parts, hrows]

/-- The view of an output of the gather command. -/
theorem storageView_gathered {g : Gathered} (hg : g.Untagged) :
    ∃ view, storageView g.text = .ok view ∧ view.mounts = g.mounts ∧
      view.devices = g.blocks.map (BlockDevice.shown g.mounts) ∧
      view.usb = (g.blocks.filter fun b => b.removable = "1".toList).map
        (BlockDevice.shownUsb g.mounts) := by
  have hdevices : g.parts.blocks.mapM (storageDevice g.mounts) =
      .ok (g.blocks.map (BlockDevice.shown g.mounts)) := by
    rw [hg.blocks, List.mapM_map]
    exact mapM_ok fun b _ => storageDevice_told g.mounts b
  have husb : (g.parts.blocks.filter StorageBlock.removable).mapM (usbStorage g.mounts) =
      .ok ((g.blocks.filter fun b => b.removable = "1".toList).map
        (BlockDevice.shownUsb g.mounts)) := by
    rw [hg.blocks, List.filter_map, List.mapM_map]
    exact mapM_ok fun b _ => usbStorage_told g.mounts b
  rw [storageView_eq, hdevices, husb]
  exact ⟨_, rfl, rfl, rfl, rfl⟩

end OpenWrtCopilot.Ports.Management
