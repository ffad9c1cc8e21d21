import OpenWrtCopilot.Ports.Storage

/-!
# Mounts and marks of the storage view

The mounts of the view should be those of the rows of `df`, and a device should be
marked as mounted when the source of a mount is the device or one of its partitions.

## Main results

* `not_onePerRow` — the mounts are never those of the rows.
* `deviceRight_iff`, `usbRight_iff` — when a device is marked rightly.
* `storage_iff` — both, for every output of the gather command.
-/

namespace OpenWrtCopilot.Ports.Management

open Verified
open Verified.PyText

/-! ## What the devices and mounts should be -/

/-- The mounts are those of the rows, in their order. -/
def OnePerRow (view : StorageView) (rows : List DfRow) : Prop :=
  view.mounts.map (fun m => (m.device, m.mountpoint)) =
    rows.map fun row => (row.device, join " " row.mountpoint)

/-- A partition of a device has its name and a number, after a `p` where the name ends
in a digit. -/
def IsPartition (name part : Text) : Prop :=
  ∃ number, number ≠ [] ∧ (∀ c ∈ number, c.isDigit = true) ∧
    part = name ++ (if name.getLast?.any Char.isDigit then 'p' :: number else number)

/-- The source is the device or one of its partitions. -/
def SourceOf (name source : Text) : Prop :=
  source = devPath name ∨ ∃ part, IsPartition name part ∧ source = devPath part

/-- The device is marked rightly. -/
def DeviceRight (mounts : List StorageMount) (b : BlockDevice) (d : StorageDevice) : Prop :=
  d.name = b.name ∧
    (d.status = "mounted".toList ↔ ∃ m ∈ mounts, SourceOf b.name m.device)

/-- The removable device is marked rightly, with the mountpoint of one of its mounts. -/
def UsbRight (mounts : List StorageMount) (b : BlockDevice) (u : UsbStorage) : Prop :=
  u.device = b.name ∧
    (u.mounted = true ↔ ∃ m ∈ mounts, SourceOf b.name m.device) ∧
    (u.mountpoint = none ↔ ¬∃ m ∈ mounts, SourceOf b.name m.device) ∧
    ∀ mountpoint, u.mountpoint = some mountpoint →
      ∃ m ∈ mounts, SourceOf b.name m.device ∧ m.mountpoint = mountpoint

structure MarksRight (blocks : List BlockDevice) (view : StorageView) : Prop where
  devices : List.Forall₂ (DeviceRight view.mounts) blocks view.devices
  usb : List.Forall₂ (UsbRight view.mounts)
    (blocks.filter fun b => b.removable = "1".toList) view.usb

/-- A source that begins with the path of the device means that one of its own is
mounted; the first such source has the mountpoint of one of its own. -/
structure Apart (rows : List DfRow) (b : BlockDevice) : Prop where
  mounted : ∀ row ∈ rows, devPath b.name <+: row.device →
    ∃ own ∈ rows, SourceOf b.name own.device
  mountpoint : b.removable = "1".toList → ∀ row,
    (rows.find? fun row => startsWith (devPath b.name) row.device) = some row →
      ∃ own ∈ rows, SourceOf b.name own.device ∧
        join " " own.mountpoint = join " " row.mountpoint

/-! ## The mounts -/

/-- **The header is a mount, so the mounts are not those of the rows.** -/
theorem not_onePerRow {g : Gathered} {view : StorageView} (h : storageView g.text = .ok view) :
    ¬OnePerRow view g.rows := by
  intro hsame
  have hdevices : headerUsage.device ::
      (g.rows.filter fun row => !tagged row.line).map DfRow.device = g.rows.map DfRow.device := by
    have hfirst := congrArg (List.map Prod.fst) hsame
    rw [List.map_map, List.map_map, mounts_of_storageView h] at hfirst
    exact g.devices_mounts.symm.trans hfirst
  -- a row that is taken for a block device has the tag for its source, not that of the header
  have hcount : ((g.rows.filter fun row => !tagged row.line).map DfRow.device).count
      headerUsage.device = (g.rows.map DfRow.device).count headerUsage.device := by
    rw [List.count_eq_countP, List.countP_map, List.count_eq_countP, List.countP_map,
      List.countP_filter]
    refine List.countP_congr fun row _ => ?_
    rw [Bool.and_eq_true, and_iff_left_iff_imp, Function.comp_apply, beq_iff_eq]
    intro hdevice
    rw [Bool.not_eq_true', Bool.eq_false_iff]
    intro htagged
    have hhead := head?_words_of_tagged htagged
    rw [row.reads, List.head?_cons, hdevice] at hhead
    exact absurd hhead (by decide)
  rw [← hdevices, List.count_cons_self] at hcount
  omega

/-! ## When the marks are right -/

theorem devPath_prefix_of_sourceOf {name source : Text} (h : SourceOf name source) :
    devPath name <+: source := by
  obtain rfl | ⟨part, ⟨number, _, _, rfl⟩, rfl⟩ := h
  · exact List.prefix_rfl
  · exact ⟨_, List.append_assoc "/dev/".toList name _⟩

theorem not_devPath_prefix_header (name : Text) : ¬devPath name <+: headerUsage.device := by
  rintro ⟨rest, hrest⟩
  have hhead : some '/' = some 'F' := congrArg List.head? hrest
  exact absurd hhead (by decide)

section Marks

variable {g : Gathered}

/-- What a mount has is had by a row, when the header cannot have it. -/
theorem exists_mount_iff (hg : g.Untagged) {P : Text → Text → Prop}
    (hheader : ∀ mountpoint, ¬P headerUsage.device mountpoint) :
    (∃ m ∈ g.mounts, P m.device m.mountpoint) ↔
      ∃ row ∈ g.rows, P row.device (join " " row.mountpoint) := by
  rw [Gathered.mounts, hg.dfRows]
  simp only [List.map_cons, List.map_map, List.mem_cons, List.mem_map, exists_eq_or_imp,
    exists_exists_and_eq_and]
  exact or_iff_right (hheader _)

theorem exists_source_iff (hg : g.Untagged) (name : Text) :
    (∃ m ∈ g.mounts, SourceOf name m.device) ↔ ∃ row ∈ g.rows, SourceOf name row.device :=
  exists_mount_iff hg (P := fun device _ => SourceOf name device) fun _ hsource =>
    not_devPath_prefix_header name (devPath_prefix_of_sourceOf hsource)

theorem deviceMounted_iff (hg : g.Untagged) (name : Text) :
    deviceMounted g.mounts name = true ↔ ∃ row ∈ g.rows, devPath name <+: row.device := by
  rw [deviceMounted, List.any_eq_true]
  simp only [startsWith, List.isPrefixOf_iff_prefix]
  exact exists_mount_iff hg (P := fun device _ => devPath name <+: device) fun _ =>
    not_devPath_prefix_header name

theorem mountedMountpoint_eq (hg : g.Untagged) (name : Text) :
    mountedMountpoint g.mounts name =
      (g.rows.find? fun row => startsWith (devPath name) row.device).map fun row =>
        join " " row.mountpoint := by
  have hheader : startsWith (devPath name) headerUsage.device = false := by
    rw [Bool.eq_false_iff, Ne, startsWith, List.isPrefixOf_iff_prefix]
    exact not_devPath_prefix_header name
  rw [mountedMountpoint, Gathered.mounts, hg.dfRows, List.map_cons, List.find?_cons_of_neg,
    List.map_map, List.find?_map, Option.map_map]
  · rfl
  · rw [Bool.not_eq_true]
    exact hheader

/-- A device is marked rightly when a mount whose source begins with its path means one
of its own. -/
theorem deviceRight_iff (hg : g.Untagged) (b : BlockDevice) :
    DeviceRight g.mounts b (b.shown g.mounts) ↔
      ∀ row ∈ g.rows, devPath b.name <+: row.device →
        ∃ own ∈ g.rows, SourceOf b.name own.device := by
  have hstatus : (b.shown g.mounts).status = "mounted".toList ↔
      deviceMounted g.mounts b.name = true := by
    have hshown : (b.shown g.mounts).status =
        if deviceMounted g.mounts b.name then "mounted".toList else "online".toList := rfl
    rw [hshown]
    cases deviceMounted g.mounts b.name <;> decide
  rw [DeviceRight, hstatus, deviceMounted_iff hg, exists_source_iff hg]
  constructor
  · rintro ⟨_, hright⟩ row hrow hprefix
    exact hright.mp ⟨row, hrow, hprefix⟩
  · intro happart
    refine ⟨rfl, ?_, ?_⟩
    · rintro ⟨row, hrow, hprefix⟩
      exact happart row hrow hprefix
    · rintro ⟨own, hown, hsource⟩
      exact ⟨own, hown, devPath_prefix_of_sourceOf hsource⟩

/-- A removable device is marked rightly when the first mount whose source begins with
its path has the mountpoint of one of its own. -/
theorem usbRight_iff (hg : g.Untagged) (b : BlockDevice) :
    UsbRight g.mounts b (b.shownUsb g.mounts) ↔
      ∀ row, (g.rows.find? fun row => startsWith (devPath b.name) row.device) = some row →
        ∃ own ∈ g.rows, SourceOf b.name own.device ∧
          join " " own.mountpoint = join " " row.mountpoint := by
  have hpoint : ∀ mountpoint,
      (∃ m ∈ g.mounts, SourceOf b.name m.device ∧ m.mountpoint = mountpoint) ↔
        ∃ own ∈ g.rows, SourceOf b.name own.device ∧ join " " own.mountpoint = mountpoint :=
    fun mountpoint => exists_mount_iff hg
      (P := fun device point => SourceOf b.name device ∧ point = mountpoint) fun _ hsource =>
        not_devPath_prefix_header b.name (devPath_prefix_of_sourceOf hsource.1)
  have hshown : (b.shownUsb g.mounts).mountpoint =
      (g.rows.find? fun row => startsWith (devPath b.name) row.device).map fun row =>
        join " " row.mountpoint := mountedMountpoint_eq hg b.name
  constructor
  · rintro ⟨_, _, _, hright⟩ row hfirst
    refine (hpoint _).mp (hright _ ?_)
    rw [hshown, hfirst]
    rfl
  · intro hfirst
    -- a source that begins with the path is as good as one of the device's own
    have hown : (∃ row ∈ g.rows, devPath b.name <+: row.device) ↔
        ∃ own ∈ g.rows, SourceOf b.name own.device := by
      constructor
      · rintro ⟨row, hrow, hprefix⟩
        cases hfind : g.rows.find? fun row => startsWith (devPath b.name) row.device with
        | none =>
          have hnone := List.find?_eq_none.mp hfind row hrow
          exact absurd (List.isPrefixOf_iff_prefix.mpr hprefix) hnone
        | some first =>
          obtain ⟨own, hmem, hsource, _⟩ := hfirst first hfind
          exact ⟨own, hmem, hsource⟩
      · rintro ⟨own, hmem, hsource⟩
        exact ⟨own, hmem, devPath_prefix_of_sourceOf hsource⟩
    refine ⟨rfl, (deviceMounted_iff hg b.name).trans (hown.trans (exists_source_iff hg _).symm),
      ?_, ?_⟩
    · rw [hshown, Option.map_eq_none_iff, List.find?_eq_none, exists_source_iff hg, ← hown]
      simp [startsWith, List.isPrefixOf_iff_prefix]
    · intro mountpoint hmountpoint
      rw [hshown, Option.map_eq_some_iff] at hmountpoint
      obtain ⟨row, hfind, rfl⟩ := hmountpoint
      exact (hpoint _).mpr (hfirst row hfind)

/-- The marks are right when the devices are apart. -/
theorem marksRight_iff (hg : g.Untagged) {view : StorageView} (h : storageView g.text = .ok view) :
    MarksRight g.blocks view ↔ ∀ b ∈ g.blocks, Apart g.rows b := by
  obtain ⟨shown, hshown, hmounts, hdevices, husb⟩ := storageView_gathered hg
  obtain rfl : shown = view := Except.ok.inj (hshown.symm.trans h)
  have hfirst : List.Forall₂ (DeviceRight shown.mounts) g.blocks shown.devices ↔
      ∀ b ∈ g.blocks, DeviceRight g.mounts b (b.shown g.mounts) := by
    rw [hmounts, hdevices, List.forall₂_map_right_iff, List.forall₂_same]
  have hsecond : List.Forall₂ (UsbRight shown.mounts)
      (g.blocks.filter fun b => b.removable = "1".toList) shown.usb ↔
      ∀ b ∈ g.blocks, b.removable = "1".toList → UsbRight g.mounts b (b.shownUsb g.mounts) := by
    rw [hmounts, husb, List.forall₂_map_right_iff, List.forall₂_same]
    simp
  constructor
  · rintro ⟨hmarked, hremovable⟩ b hb
    exact ⟨(deviceRight_iff hg b).mp (hfirst.mp hmarked b hb),
      fun hone => (usbRight_iff hg b).mp (hsecond.mp hremovable b hb hone)⟩
  · intro hapart
    exact ⟨hfirst.mpr fun b hb => (deviceRight_iff hg b).mpr (hapart b hb).mounted,
      hsecond.mpr fun b hb hone => (usbRight_iff hg b).mpr ((hapart b hb).mountpoint hone)⟩

end Marks

/-- **The mounts are never those of the rows: the header is one more.  The marks are
right when a source that begins with the path of a device means one of its own.** -/
theorem storage_iff (g : Gathered) :
    (∀ view, storageView g.text = .ok view → ¬OnePerRow view g.rows) ∧
    (g.Untagged → ∃ view, storageView g.text = .ok view ∧
      (MarksRight g.blocks view ↔ ∀ b ∈ g.blocks, Apart g.rows b)) := by
  refine ⟨fun _ => not_onePerRow, fun hg => ?_⟩
  obtain ⟨view, hview, _⟩ := storageView_gathered hg
  exact ⟨view, hview, marksRight_iff hg hview⟩

section Examples

theorem counted_of_lt {n : Nat} (h : n < 10 ^ 4) : n < 10 ^ maxStrDigits :=
  h.trans_le (Nat.pow_le_pow_right (by decide) (by decide))

/-- A removable device of 4096 sectors. -/
def stick (name : Text) (hname : '|' ∉ name) (hline : SingleLine name) : BlockDevice where
  name := name
  sectors := 4096
  devtype := "0".toList
  removable := "1".toList
  devnodes := "8:0".toList
  vendor := "Generic ".toList
  model := "Flash Disk      ".toList
  fields := List.forall_mem_cons.mpr ⟨hname, by decide⟩
  singleLine := List.forall_mem_cons.mpr ⟨hline, by decide⟩
  counted := counted_of_lt (by decide)

/-- The mount of `/dev/sda1`. -/
def ownRow : DfRow where
  device := "/dev/sda1".toList
  total := "2048".toList
  used := "512".toList
  available := "1536".toList
  percent := "25%".toList
  mountpoint := ["/mnt/usb".toList]
  line := "/dev/sda1                 2048       512      1536  25% /mnt/usb".toList
  reads := by rfl
  somewhere := by decide
  singleLine := by decide +kernel
  counted := by decide +kernel

/-- The mount of `/dev/sdaa1`. -/
def otherRow : DfRow where
  device := "/dev/sdaa1".toList
  total := "2048".toList
  used := "512".toList
  available := "1536".toList
  percent := "25%".toList
  mountpoint := ["/mnt/usb".toList]
  line := "/dev/sdaa1                2048       512      1536  25% /mnt/usb".toList
  reads := by decide +kernel
  somewhere := by decide
  singleLine := by decide +kernel
  counted := by decide

/-- A stick `sda` beside one row. -/
def withStick (row : DfRow) : Gathered where
  blocks := [stick "sda".toList (by decide) (by decide)]
  header := "Filesystem           1K-blocks      Used Available Use% Mounted on".toList
  rows := [row]
  entries := ["/dev/root / squashfs ro,relatime 0 0".toList]
  isHeader := by decide
  headerLine := by decide +kernel
  isEntry := by decide +kernel

theorem untagged_withStick {row : DfRow} (h : row.device ≠ blockTag) :
    (withStick row).Untagged where
  rows := by
    intro other hother
    obtain rfl := List.mem_singleton.mp hother
    exact h
  entries := by
    have hroot : (words "/dev/root / squashfs ro,relatime 0 0").head? ≠ some blockTag := by
      decide +kernel
    intro entry hentry
    obtain rfl := List.mem_singleton.mp hentry
    exact hroot

theorem ownRow_marked :
    ∃ view, storageView (withStick ownRow).text = .ok view ∧
      MarksRight (withStick ownRow).blocks view := by
  obtain ⟨_, hmarks⟩ := storage_iff (withStick ownRow)
  obtain ⟨view, hview, hiff⟩ := hmarks (untagged_withStick (by decide))
  refine ⟨view, hview, hiff.mpr fun b hb => ?_⟩
  obtain rfl := List.mem_singleton.mp hb
  have hown : ∃ own ∈ (withStick ownRow).rows, SourceOf "sda".toList own.device ∧
      join " " own.mountpoint = join " " ownRow.mountpoint :=
    ⟨ownRow, List.mem_singleton_self _,
      .inr ⟨"sda1".toList, ⟨"1".toList, by decide, by decide, by decide⟩, by decide⟩, rfl⟩
  refine ⟨fun _ _ _ => ?_, fun _ row hfirst => ?_⟩
  · obtain ⟨own, hmem, hsource, _⟩ := hown
    exact ⟨own, hmem, hsource⟩
  · obtain rfl := List.mem_singleton.mp (List.mem_of_find?_eq_some hfirst)
    exact hown

theorem not_sourceOf_sda : ¬SourceOf "sda".toList "/dev/sdaa1".toList := by
  rintro (hself | ⟨part, ⟨number, _, hdigits, rfl⟩, hpart⟩)
  · exact absurd hself (by decide)
  · have hrest : "/dev/sda".toList ++ "a1".toList = "/dev/sda".toList ++ number := hpart
    have hnumber : "a1".toList = number := List.append_cancel_left hrest
    exact absurd (hdigits 'a' (hnumber ▸ by decide)) (by decide)

/-- **The one row gives two mounts, and `sda` is marked mounted where `/dev/sdaa1` is.** -/
theorem otherRow_not_marked :
    (∃ view, storageView (withStick otherRow).text = .ok view ∧
      view.mounts.map StorageMount.device = ["Filesystem".toList, "/dev/sdaa1".toList] ∧
      view.devices.map (fun d => (d.name, d.status)) =
        [("sda".toList, "mounted".toList)] ∧
      view.usb.map (fun u => (u.device, u.mountpoint)) =
        [("sda".toList, some "/mnt/usb".toList)] ∧
      ¬MarksRight (withStick otherRow).blocks view) ∧
    ¬∀ (g : Gathered) (view : StorageView), storageView g.text = .ok view →
      OnePerRow view g.rows ∧ MarksRight g.blocks view := by
  have hg : (withStick otherRow).Untagged := untagged_withStick (by decide)
  obtain ⟨view, hview, hmounts, hdevices, husb⟩ := storageView_gathered hg
  refine ⟨⟨view, hview, ?_, ?_, ?_, fun hmarks => ?_⟩, fun hall => ?_⟩
  · rw [hmounts]
    rfl
  · rw [hdevices]
    rfl
  · rw [husb]
    rfl
  · have hapart := (marksRight_iff hg hview).mp hmarks _ (List.mem_singleton_self _)
    obtain ⟨own, hown, hsource⟩ := hapart.mounted otherRow (List.mem_singleton_self _) (by decide)
    obtain rfl := List.mem_singleton.mp hown
    exact not_sourceOf_sda hsource
  · exact not_onePerRow hview (hall _ view hview).1

end Examples

end OpenWrtCopilot.Ports.Management
