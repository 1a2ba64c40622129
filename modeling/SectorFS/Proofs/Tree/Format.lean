import SectorFS.Proofs.Tree.Growth
import SectorFS.Proofs.Volume
import SectorFS.Volume.Format

namespace SectorFS

open Layout

namespace Volume

open Operation

structure Blueprint (mapHeader rootHeader : Header) (map : FreeMap) : Prop where
  allocated : ∃ reserved left, reservedMap = .ok reserved ∧
    reserved.allocate freeMapFileSize = .ok (mapHeader, left) ∧
    left.allocate directoryFileSize = .ok (rootHeader, map)
  mapSectors : mapHeader.dataSectors = [2]
  rootSectors : rootHeader.dataSectors = [3, 4]
  used : ∀ s, map.used s = true ↔ s ∈ ([0, 2, 1, 3, 4] : List UInt32)
  count : map.count = numSectors
  mapConsistent : mapHeader.Consistent
  rootConsistent : rootHeader.Consistent
  mapLength : mapHeader.length = freeMapFileSize
  rootLength : rootHeader.length = directoryFileSize

theorem exists_blueprint : ∃ mapHeader rootHeader map, Blueprint mapHeader rootHeader map := by
  refine ⟨_, _, _, ⟨⟨_, _, rfl, rfl, rfl⟩, rfl, rfl, fun s ↦ ?_, rfl, ?_, ?_, rfl, rfl⟩⟩
  · change (decide (s.toNat < numSectors) && [0, 1, 2, 3, 4].contains s.toNat) = true ↔ _
    simp only [List.contains_eq_mem, Bool.and_eq_true, decide_eq_true_eq, List.mem_cons,
      List.not_mem_nil, or_false, ← UInt32.toNat_inj]
    simp only [numSectors, sectorsPerTrack, numTracks, UInt32.reduceToNat]
    omega
  · decide
  · decide

def formatting : Action Volume := do
  Action.query checkGeometry
  let map ← Action.query fun _ ↦ reservedMap
  let (mapHeader, map) ← Action.query fun _ ↦ map.allocate freeMapFileSize
  let (rootHeader, map) ← Action.query fun _ ↦ map.allocate directoryFileSize
  Action.writeHeader mapHeader freeMapSector
  Action.writeHeader rootHeader rootSector
  let volume ← Action.query assemble
  let root ← Action.query fun _ ↦ Directory.linked directorySlots rootSector rootSector
  map.store volume.freeMapFile
  root.store volume.rootFile
  Action.flush
  return volume

theorem actsAs_allocate (map : FreeMap) (numBytes : Nat) :
    (allocate map numBytes).ActsAs (Action.query fun _ ↦ map.allocate numBytes) := by
  have hall := (actsAs_query fun _ ↦ map.allocate numBytes).bind fun (left : Header × FreeMap) ↦
    ActsAs.note_bind (.allocated numBytes left.1.dataSectors) (actsAs_pure left)
  rwa [bind_pure] at hall

theorem actsAs_format : format.ActsAs formatting := by
  refine ActsAs.note_bind _ ((actsAs_query _).bind fun _ ↦ (actsAs_query _).bind fun map ↦
    (actsAs_allocate _ _).bind fun first ↦ (actsAs_allocate _ _).bind fun second ↦
      ActsAs.note_bind _ ((actsAs_act _).bind fun _ ↦ (actsAs_act _).bind fun _ ↦
        (actsAs_query _).bind fun volume ↦ (actsAs_query _).bind fun root ↦
          ActsAs.note_bind _ ((actsAs_act _).bind fun _ ↦ (actsAs_act _).bind fun _ ↦
            (actsAs_act _).bind fun _ ↦ ActsAs.note_bind _ (actsAs_pure _))))

namespace Blueprint

variable {mapHeader rootHeader : Header} {map : FreeMap} {device : Device}
  (b : Blueprint mapHeader rootHeader map)

def mapFile : File := ⟨freeMapSector, mapHeader, b.mapConsistent⟩

def rootFile : File := ⟨rootSector, rootHeader, b.rootConsistent⟩

def headed (_ : Blueprint mapHeader rootHeader map) (device : Device) : Device :=
  device.edit [(freeMapSector, mapHeader.block), (rootSector, rootHeader.block)]

def mapped (device : Device) : Device :=
  (b.headed device).edit (b.mapFile.rewrites (b.headed device) map.bytes 0)

def laid (root : Directory) (device : Device) : Device :=
  (b.mapped device).edit (b.rootFile.rewrites (b.mapped device) root.bytes 0)

theorem size_headed : (b.headed device).blocks.size = device.blocks.size := Device.size_edit _ _

theorem size_mapped : (b.mapped device).blocks.size = device.blocks.size :=
  (Device.size_edit _ _).trans b.size_headed

variable (hroom : numSectors ≤ device.blocks.size)
include hroom

theorem block?_headed : (b.headed device).block? freeMapSector = some mapHeader.block ∧
    (b.headed device).block? rootSector = some rootHeader.block := by
  have hhas : ∀ s : UInt32, s.toNat < 2 → ∃ block, device.block? s = some block := fun s hs ↦
    Device.has_iff.1 (Nat.lt_of_lt_of_le hs (Nat.le_trans (by decide) hroom))
  obtain ⟨first, hfirst⟩ := hhas freeMapSector (by decide)
  obtain ⟨second, hsecond⟩ := hhas rootSector (by decide)
  have hne : freeMapSector ≠ rootSector := by decide
  have hne' : rootSector ≠ freeMapSector := by decide
  constructor
  · simp [headed, Device.edit, Device.block?_put, hne', hfirst]
  · simp [headed, Device.edit, Device.block?_put, hne, hsecond]

theorem onDevice_mapFile : b.mapFile.OnDevice (b.headed device) := by
  intro s hs
  change s ∈ mapHeader.dataSectors at hs
  rw [b.mapSectors, List.mem_singleton] at hs
  rw [Device.Has, b.size_headed, hs]
  exact Nat.lt_of_lt_of_le (by decide) hroom

theorem onDevice_rootFile : b.rootFile.OnDevice (b.mapped device) := by
  intro s hs
  change s ∈ rootHeader.dataSectors at hs
  rw [b.rootSectors] at hs
  have hlt : s.toNat < numSectors := by
    rcases List.mem_cons.1 hs with rfl | hs
    · decide
    · rw [List.mem_singleton.1 hs]
      decide
  rw [Device.Has, b.size_mapped]
  exact Nat.lt_of_lt_of_le hlt hroom

omit hroom in
theorem block?_laid (root : Directory) {t : UInt32} (h : t ∉ ([2, 3, 4] : List UInt32)) :
    (b.laid root device).block? t = (b.headed device).block? t := by
  rw [laid, Device.block?_edit_of_not_mem, mapped, Device.block?_edit_of_not_mem]
  · intro hmem
    obtain ⟨edit, hedit, rfl⟩ := List.mem_map.1 hmem
    have hin : edit.1 ∈ mapHeader.dataSectors := File.fst_mem_of_mem_rewrites hedit
    rw [b.mapSectors, List.mem_singleton] at hin
    exact h (hin ▸ List.mem_cons_self)
  · intro hmem
    obtain ⟨edit, hedit, rfl⟩ := List.mem_map.1 hmem
    have hin : edit.1 ∈ rootHeader.dataSectors := File.fst_mem_of_mem_rewrites hedit
    rw [b.rootSectors] at hin
    exact h (List.mem_cons_of_mem _ hin)

variable (hf : device.faults = {})
include hf

omit hroom in
theorem faults_headed : (b.headed device).faults = {} := Device.faults_edit hf _

omit hroom in
theorem faults_mapped : (b.mapped device).faults = {} := Device.faults_edit (b.faults_headed hf) _

omit hroom in
theorem faults_laid (root : Directory) : (b.laid root device).faults = {} :=
  Device.faults_edit (b.faults_mapped hf) _

theorem openFile_headed : (b.headed device).openFile freeMapSector = .ok b.mapFile ∧
    (b.headed device).openFile rootSector = .ok b.rootFile := by
  obtain ⟨hmap, hroot⟩ := b.block?_headed hroom
  exact ⟨Device.openFile_of_readHeader
      (Device.readHeader_of_block? (b.faults_headed hf) hmap b.mapConsistent),
    Device.openFile_of_readHeader
      (Device.readHeader_of_block? (b.faults_headed hf) hroot b.rootConsistent)⟩

theorem openFile_laid (root : Directory) :
    (b.laid root device).openFile freeMapSector = .ok b.mapFile ∧
      (b.laid root device).openFile rootSector = .ok b.rootFile := by
  obtain ⟨hmap, hroot⟩ := b.openFile_headed hroom hf
  exact ⟨(Device.openFile_congr (b.faults_headed hf) (b.faults_laid hf root)
      (b.block?_laid root (by decide))).trans hmap,
    (Device.openFile_congr (b.faults_headed hf) (b.faults_laid hf root)
      (b.block?_laid root (by decide))).trans hroot⟩

theorem hasMap (root : Directory) : (b.laid root device).HasMap map := by
  refine ⟨b.mapFile, (b.openFile_laid hroom hf root).1, b.mapLength, ?_⟩
  have hnodup : b.mapFile.header.dataSectors.Nodup := by
    change mapHeader.dataSectors.Nodup
    rw [b.mapSectors]
    decide
  have hstored := FreeMap.load_store (b.faults_headed hf) hnodup (b.onDevice_mapFile hroom)
    (Nat.le_of_eq b.mapLength.symm) b.count
  rw [FreeMap.load_congr (b.faults_mapped hf) (b.faults_laid hf root) fun s hs ↦ ?_]
  · exact hstored
  · change s ∈ mapHeader.dataSectors at hs
    rw [b.mapSectors, List.mem_singleton] at hs
    apply Device.block?_edit_of_not_mem
    intro hmem
    obtain ⟨edit, hedit, rfl⟩ := List.mem_map.1 hmem
    have hin : edit.1 ∈ rootHeader.dataSectors := File.fst_mem_of_mem_rewrites hedit
    rw [b.rootSectors, hs] at hin
    exact absurd hin (by decide)

theorem hasTable {root : Directory} (hcap : root.capacity = directorySlots) :
    (b.laid root device).HasTable rootSector root := by
  have hnodup : b.rootFile.header.dataSectors.Nodup := by
    change rootHeader.dataSectors.Nodup
    rw [b.rootSectors]
    decide
  refine ⟨b.rootFile, Device.openDirectory_eq_ok_iff.2 ⟨(b.openFile_laid hroom hf root).2, ?_⟩,
    b.rootLength⟩
  exact Directory.readDirectory_store (b.faults_mapped hf) hnodup (b.onDevice_rootFile hroom)
    (Nat.le_of_eq b.rootLength.symm) hcap

theorem owned_eq (root : Directory) :
    Tree.owned [] (b.laid root device) = [0, 2, 1, 3, 4] := by
  obtain ⟨hmap, hroot⟩ := b.openFile_laid hroom hf root
  have hfirst : (b.laid root device).footprint freeMapSector = [0, 2] := by
    rw [Device.footprint, Device.dataSectors_of_openFile hmap]
    exact congrArg _ b.mapSectors
  have hsecond : (b.laid root device).footprint rootSector = [1, 3, 4] := by
    rw [Device.footprint, Device.dataSectors_of_openFile hroot]
    exact congrArg _ b.rootSectors
  change (b.laid root device).footprint freeMapSector ++
    ((b.laid root device).footprint rootSector ++ []) = _
  rw [hfirst, hsecond]
  rfl

/-- A volume just laid out stores the empty tree. -/
theorem stored {root : Directory} (hcap : root.capacity = directorySlots)
    (hlinked : root.Linked rootSector rootSector) (hchildren : root.children = []) :
    Tree.Stored [] (b.laid root device) := by
  refine ⟨?_, trivial, ?_, nofun, ⟨map, b.hasMap hroom hf root, ?_⟩, ?_⟩
  · rw [laid, Device.size_edit, b.size_mapped]
    exact hroom
  · rintro here parent (⟨rfl, rfl⟩ | ⟨node, hnode, -⟩)
    · exact ⟨root, b.hasTable hroom hf hcap, hlinked, hchildren ▸ .nil⟩
    · contradiction
  · rw [b.owned_eq hroom hf root]
    exact fun s hs ↦ (b.used s).2 hs
  · rw [b.owned_eq hroom hf root]
    decide

theorem tidy {root : Directory} (hcap : root.capacity = directorySlots)
    (hnames : (root.entries.map Entry.name).Nodup) : Tree.Tidy [] (b.laid root device) := by
  refine ⟨?_, ?_⟩
  · rintro here parent table (⟨rfl, rfl⟩ | ⟨node, hnode, -⟩) htable
    · exact (b.hasTable hroom hf hcap).eq htable ▸ hnames
    · contradiction
  · intro other s hother hs
    rw [b.owned_eq hroom hf root]
    exact (b.used s).1 (hother.eq (b.hasMap hroom hf root) ▸ hs)

theorem run_formatting (hgeometry : checkGeometry device = .ok ()) {root : Directory}
    (hroot : Directory.linked directorySlots rootSector rootSector = .ok root)
    (hcap : root.capacity = directorySlots) :
    formatting.run device = (.ok ⟨b.mapFile, b.rootFile, .empty maxOpenFiles⟩,
      { b.laid root device with flushes := (b.laid root device).flushes + 1 }) := by
  obtain ⟨reserved, left, hreserved, hmap, hrootHeader⟩ := b.allocated
  obtain ⟨hmapFile, hrootFile⟩ := b.openFile_headed hroom hf
  have hhas : ∀ s : UInt32, s.toNat < 2 → device.Has s := fun s hs ↦
    Nat.lt_of_lt_of_le hs (Nat.le_trans (by decide) hroom)
  have hassemble : assemble (b.headed device) = .ok ⟨b.mapFile, b.rootFile, .empty maxOpenFiles⟩ :=
    bind_eq_ok.2 ⟨_, hmapFile, bind_eq_ok.2 ⟨_, hrootFile, rfl⟩⟩
  have hfirst : (Action.writeHeader mapHeader freeMapSector).run device =
      (.ok (), device.edit [(freeMapSector, mapHeader.block)]) :=
    (Action.carriesOut_write (hhas _ (by decide)) _).run_of_faultFree hf
  have hsecond : (Action.writeHeader rootHeader rootSector).run
      (device.edit [(freeMapSector, mapHeader.block)]) = (.ok (), b.headed device) :=
    (Action.carriesOut_write (Device.has_edit.2 (hhas _ (by decide))) _).run_of_faultFree
      (Device.faults_edit hf _)
  have hmapRoom : freeMapFileSize ≤ b.mapFile.length := Nat.le_of_eq b.mapLength.symm
  have hrootRoom : directoryFileSize ≤ b.rootFile.length := Nat.le_of_eq b.rootLength.symm
  have hstoreMap : (map.store b.mapFile).run (b.headed device) = (.ok (), b.mapped device) :=
    (FreeMap.carriesOut_store_of_room b.count hmapRoom fun span hspan ↦
      b.onDevice_mapFile hroom _ (File.sector_mem_of_mem_spans hspan)).run_of_faultFree
        (b.faults_headed hf)
  have hstoreRoot : (root.store b.rootFile).run (b.mapped device) = (.ok (), b.laid root device) :=
    (Directory.carriesOut_store_of_room hcap hrootRoom fun span hspan ↦
      b.onDevice_rootFile hroom _ (File.sector_mem_of_mem_spans hspan)).run_of_faultFree
        (b.faults_mapped hf)
  rw [formatting, run_bind_of_ok (Action.run_query hgeometry),
    run_bind_of_ok (Action.run_query hreserved), run_bind_of_ok (Action.run_query hmap)]
  dsimp only
  rw [run_bind_of_ok (Action.run_query hrootHeader)]
  dsimp only
  rw [run_bind_of_ok hfirst, run_bind_of_ok hsecond, run_bind_of_ok (Action.run_query hassemble),
    run_bind_of_ok (Action.run_query hroot), run_bind_of_ok hstoreMap, run_bind_of_ok hstoreRoot,
    run_bind_of_ok (Action.run_flush (b.faults_laid hf root))]
  rfl

end Blueprint

end Volume

end SectorFS
