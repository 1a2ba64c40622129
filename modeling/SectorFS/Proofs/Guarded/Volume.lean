import SectorFS.Proofs.Binding
import SectorFS.Proofs.Guarded.OpenTable
import SectorFS.Proofs.Guarded.Walk

namespace SectorFS

open Layout

namespace Guarded

variable {session : Session} {path : String} {volume : Volume}

/-! ## Creating -/

def newTable (kind : Kind) (sector parent : UInt32) : Program (Option Directory) := do
  match kind with
  | .regular => return none
  | .directory => return some (← linked directorySlots sector parent)

def prepareCreation (volume : Volume) (session : Session) (path : String) (kind : Kind)
    (size : Nat) : Program Creation := do
  let (parentSector, name) ← locateEntry session path
  let (parentFile, parent) ← openDirectory parentSector
  if (← findEntry parent name).isSome then .fail (.alreadyExists name)
  else
    let map ← loadMap volume.freeMapFile
    match ← find map with
    | none => .fail (.capacityExceeded .noFreeSector)
    | some (sector, map) =>
      let parent ← addEntry parent name sector kind
      let (header, map) ← allocate map size
      let table? ← newTable kind sector parentSector
      return { sector, header, table?, parentFile, parent, map }

def storeTable (sector : UInt32) : Option Directory → Program Unit
  | none => return ()
  | some table => do storeDirectory table (← openFile sector)

def commitCreation (creation : Creation) (freeMapFile : File) : Program Unit := do
  writeHeader creation.header creation.sector
  storeTable creation.sector creation.table?
  storeDirectory creation.parent creation.parentFile
  storeMap creation.map freeMapFile

def createEntry (volume : Volume) (session : Session) (path : String) (kind : Kind) (size : Nat) :
    Program Unit :=
  Program.noteFailure (.createFailed kind path) do
    let creation ← prepareCreation volume session path kind size
    Program.say [.allocated size (← Guarded.dataSectors creation.header)]
    commitCreation creation volume.freeMapFile
    Program.say [.created path creation.sector kind size]

structure Writable (creation : Creation) : Prop where
  header : creation.header.Consistent
  table : ∀ table, creation.table? = some table → table.capacity = directorySlots
  parent : creation.parent.capacity = directorySlots

theorem capacity_of_linked {capacity : Nat} {self parent : UInt32} {table : Directory}
    (h : Directory.linked capacity self parent = .ok table) : table.capacity = capacity := by
  obtain ⟨first, hfirst, hsecond⟩ := bind_eq_ok.1 h
  obtain ⟨_, _, _, hdot⟩ := Directory.of_add hfirst
  obtain ⟨_, _, _, hdots⟩ := Directory.of_add hsecond
  rw [hdots.capacity, hdot.capacity]
  exact List.length_replicate

theorem asks_linked (sector parent : UInt32) :
    (some <$> linked directorySlots sector parent).Asks
      (fun _ ↦ some <$> Directory.linked directorySlots sector parent)
      fun table? ↦ ∀ table, table? = some table → table.capacity = directorySlots := by
  rw [linked_eq]
  cases hlinked : Directory.linked directorySlots sector parent with
  | error error => exact Program.asks_fail error
  | ok table =>
    refine Program.asks_pure fun other hother ↦ ?_
    cases hother
    exact capacity_of_linked hlinked

theorem asks_prepareCreation (h : Countable path) (kind : Kind) (size : Nat) :
    (prepareCreation volume session path kind size).Asks
      (Creation.prepare volume session path kind size) Writable := by
  refine Program.Asks.bind (asks_locateEntry h) fun (parentSector, name) _ ↦ ?_
  refine Program.Asks.bind (asks_openDirectory parentSector) fun (parentFile, parent) hparent ↦ ?_
  dsimp only
  rw [Program.guarded_bind (findEntry_eq parent name)]
  cases (parent.find? name).isSome with
  | true => exact Program.asks_fail _
  | false =>
    refine Program.Asks.bind (asks_loadMap volume.freeMapFile) fun map _ ↦ ?_
    rw [Program.guarded_bind (find_eq map)]
    cases map.takeFirst? with
    | none => exact Program.asks_fail _
    | some taken =>
      obtain ⟨sector, map⟩ := taken
      dsimp only
      rw [addEntry_eq, allocate_eq]
      refine Program.Asks.bind (Program.follows_except fun _ ↦ Directory.of_add) fun added hadd ↦ ?_
      refine Program.Asks.bind (Program.follows_except fun _ ↦ id) fun (header, left) halloc ↦ ?_
      obtain ⟨_, _, _, hreplaces⟩ := hadd
      have hcapacity := hreplaces.capacity.trans hparent
      have hheader := (FreeMap.of_allocate halloc).1
      cases kind with
      | regular => exact Program.asks_pure ⟨hheader, nofun, hcapacity⟩
      | directory =>
        exact Program.Asks.bind (asks_linked sector parentSector) fun table? htable ↦
          Program.asks_pure ⟨hheader, htable, hcapacity⟩

theorem acts_commitCreation {creation : Creation} (h : Writable creation) (freeMapFile : File) :
    (commitCreation creation freeMapFile).Acts (creation.commit freeMapFile) fun _ ↦ True := by
  obtain ⟨sector, header, table?, parentFile, parent, map⟩ := creation
  have hparent := h.parent
  refine Program.Acts.bind (acts_writeHeader header sector) fun _ _ ↦ ?_
  have hrest : (storeDirectory parent parentFile >>= fun _ ↦ storeMap map freeMapFile).Acts
      (parent.store parentFile >>= fun _ ↦ map.store freeMapFile) fun _ ↦ True :=
    Program.Acts.bind (acts_storeDirectory (Nat.le_of_eq hparent) parentFile) fun _ _ ↦
      acts_storeMap map freeMapFile
  cases table? with
  | none => exact hrest
  | some table =>
    have htable := Nat.le_of_eq (h.table table rfl)
    change ((openFile sector >>= fun file ↦ storeDirectory table file) >>= fun _ ↦ _).Acts
      (Action.query (·.openFile sector) >>= fun file ↦ table.store file >>= fun _ ↦ _) _
    rw [bind_assoc]
    exact Program.Acts.bind (asks_openFile sector).acts fun file _ ↦
      Program.Acts.bind (acts_storeDirectory htable file) fun _ _ ↦ hrest

theorem follows_createEntry (h : Countable path) (kind : Kind) (size : Nat) :
    (createEntry volume session path kind size).Follows
      (volume.createEntry session path kind size) fun _ ↦ True := by
  refine Program.Follows.noteFailure ?_ _
  refine Program.Follows.bind (asks_prepareCreation h kind size) fun creation hc ↦ ?_
  rw [Program.guarded_bind (dataSectors_eq hc.header)]
  refine Program.Follows.bind (Program.follows_say _) fun _ _ ↦ ?_
  exact Program.Follows.bind (acts_commitCreation hc volume.freeMapFile) fun _ _ ↦
    Program.follows_say _

/-! ## Removing -/

def findRemoval (session : Session) (path : String) : Program Removal := do
  let (parentSector, name) ← locateEntry session path
  if name = dot ∨ name = dotDot then .fail (.invalidArgument (.cannotRemove name))
  else
    let (parentFile, parent) ← openDirectory parentSector
    match ← findEntry parent name with
    | none => .fail (.notFound name)
    | some entry => return ⟨name, entry.sector, parentFile, parent⟩

def prepareRemoval (removal : Removal) (volume : Volume) : Program (FreeMap × Directory) := do
  let header ← readHeader removal.sector
  let map ← loadMap volume.freeMapFile
  let map ← clear (← release map header) removal.sector
  return (map, ← removeEntry removal.parent removal.name)

def remove (volume : Volume) (session : Session) (path : String) : Program Unit :=
  Program.noteFailure (.removeFailed path) do
    let removal ← findRemoval session path
    if (volume.openTable.handleOf? removal.sector).isSome then Program.say [.removingOpen path]
    let (map, parent) ← prepareRemoval removal volume
    storeMap map volume.freeMapFile
    storeDirectory parent removal.parentFile
    Program.say [.removed path removal.sector]

theorem asks_findRemoval (h : Countable path) :
    (findRemoval session path).Asks (Removal.find session path)
      fun removal ↦ removal.parent.capacity = directorySlots := by
  refine Program.Asks.bind (asks_locateEntry h) fun located _ ↦ ?_
  obtain ⟨parentSector, name⟩ := located
  dsimp only
  by_cases hlink : name = dot ∨ name = dotDot
  · simp only [if_pos hlink]
    exact Program.asks_fail _
  · simp only [if_neg hlink]
    refine Program.Asks.bind (asks_openDirectory parentSector) fun opened h ↦ ?_
    obtain ⟨parentFile, parent⟩ := opened
    dsimp only
    rw [Program.guarded_bind (findEntry_eq parent name)]
    cases parent.find? name with
    | none => exact Program.asks_fail _
    | some entry => exact Program.asks_pure h

theorem asks_prepareRemoval {removal : Removal} (h : removal.parent.capacity = directorySlots) :
    (prepareRemoval removal volume).Asks (removal.prepare volume)
      fun (_, parent) ↦ parent.capacity = directorySlots := by
  refine Program.Asks.bind (asks_readHeader removal.sector) fun header hc ↦ ?_
  refine Program.Asks.bind (asks_loadMap volume.freeMapFile) fun map _ ↦ ?_
  rw [release_eq map hc]
  refine Program.Asks.bind (Program.follows_except fun _ _ ↦ trivial) fun released _ ↦ ?_
  rw [clear_eq, removeEntry_eq]
  refine Program.Asks.bind (Program.follows_except fun _ _ ↦ trivial) fun cleared _ ↦ ?_
  refine Program.Asks.bind (Program.follows_except fun _ ↦ Directory.of_remove) fun left hleft ↦ ?_
  obtain ⟨_, _, hreplaces⟩ := hleft
  exact Program.asks_pure (hreplaces.capacity.trans h)

theorem follows_remove (h : Countable path) :
    (remove volume session path).Follows (volume.remove session path) fun _ ↦ True := by
  refine Program.Follows.noteFailure ?_ _
  refine Program.Follows.bind (asks_findRemoval h) fun removal hremoval ↦ ?_
  have hrest : (prepareRemoval removal volume >>= fun (map, parent) ↦
      storeMap map volume.freeMapFile >>= fun _ ↦
        storeDirectory parent removal.parentFile >>= fun _ ↦
          Program.say [.removed path removal.sector]).Follows
      (Operation.query (removal.prepare volume) >>= fun (map, parent) ↦
        Operation.act (map.store volume.freeMapFile) >>= fun _ ↦
          Operation.act (parent.store removal.parentFile) >>= fun _ ↦
            Operation.note (.removed path removal.sector)) fun _ ↦ True := by
    refine Program.Follows.bind (asks_prepareRemoval hremoval) fun (map, parent) hparent ↦ ?_
    refine Program.Follows.bind (acts_storeMap map volume.freeMapFile) fun _ _ ↦ ?_
    exact Program.Follows.bind (acts_storeDirectory (Nat.le_of_eq hparent) removal.parentFile)
      fun _ _ ↦ Program.follows_say _
  cases (volume.openTable.handleOf? removal.sector).isSome with
  | true => exact Program.Follows.bind (Program.follows_say _) fun _ _ ↦ hrest
  | false => exact hrest

/-! ## Laying out and taking up -/

def reservedMap : Program FreeMap := do
  mark (← mark (.empty numSectors) freeMapSector) rootSector

def checkGeometry : Program Unit :=
  .geometry fun count size ↦
    if numSectors ≤ count ∧ size = sectorSize then .done ()
    else .fail (.invalidArgument (.geometry count size))

def assemble : Program Volume := do
  let freeMapFile ← openFile freeMapSector
  let rootFile ← openFile rootSector
  return ⟨freeMapFile, rootFile, .empty maxOpenFiles⟩

def allocateNoted (map : FreeMap) (numBytes : Nat) : Program (Header × FreeMap) := do
  let (header, map) ← allocate map numBytes
  Program.say [.allocated numBytes (← Guarded.dataSectors header)]
  return (header, map)

def format : Program Volume := do
  Program.say [.formatting]
  checkGeometry
  let map ← reservedMap
  let (mapHeader, map) ← allocateNoted map freeMapFileSize
  let (rootHeader, map) ← allocateNoted map directoryFileSize
  Program.say [.writingHeaders]
  writeHeader mapHeader freeMapSector
  writeHeader rootHeader rootSector
  let volume ← assemble
  let root ← linked directorySlots rootSector rootSector
  Program.say [.writingTables]
  storeMap map volume.freeMapFile
  storeDirectory root volume.rootFile
  Program.flushDevice
  Program.say [.laidOut map]
  return volume

def mount : Program Volume := do
  let volume ← assemble
  Program.say [.mounted]
  return volume

theorem reservedMap_eq : reservedMap = liftM Volume.reservedMap := by
  rw [reservedMap, Volume.reservedMap, mark_eq]
  cases (FreeMap.empty numSectors).mark freeMapSector with
  | error error => rfl
  | ok map => exact mark_eq map rootSector

theorem asks_checkGeometry : checkGeometry.Asks Volume.checkGeometry fun _ ↦ True := by
  constructor
  · intro count size
    dsimp only
    split <;> trivial
  · intro host
    change Program.run (ite _ _ _) host = .ok (ite _ _ _, host)
    split
    · rfl
    · rfl

theorem asks_assemble : assemble.Asks Volume.assemble Volume.Unopened :=
  Program.Asks.bind (asks_openFile freeMapSector) fun _ _ ↦
    Program.Asks.bind (asks_openFile rootSector) fun _ _ ↦ Program.asks_pure rfl

theorem follows_allocateNoted (map : FreeMap) (numBytes : Nat) :
    (allocateNoted map numBytes).Follows (Operation.allocate map numBytes) fun _ ↦ True := by
  rw [allocateNoted, allocate_eq]
  refine Program.Follows.bind (Program.follows_except fun _ ↦ FreeMap.of_allocate)
    fun (header, map) h ↦ ?_
  dsimp only
  rw [Program.guarded_bind (dataSectors_eq h.1)]
  exact Program.Follows.bind (Program.follows_say _) fun _ _ ↦ Program.follows_pure trivial

theorem follows_format : format.Follows Volume.format Volume.Unopened := by
  refine Program.Follows.bind (Program.follows_say _) fun _ _ ↦ ?_
  refine Program.Follows.bind asks_checkGeometry fun _ _ ↦ ?_
  rw [reservedMap_eq, linked_eq]
  refine Program.Follows.bind (Program.follows_except fun _ _ ↦ trivial) fun reserved _ ↦ ?_
  refine Program.Follows.bind (follows_allocateNoted reserved freeMapFileSize)
    fun (mapHeader, map) _ ↦ ?_
  refine Program.Follows.bind (follows_allocateNoted map directoryFileSize)
    fun (rootHeader, map) _ ↦ ?_
  refine Program.Follows.bind (Program.follows_say _) fun _ _ ↦ ?_
  refine Program.Follows.bind (acts_writeHeader mapHeader freeMapSector) fun _ _ ↦ ?_
  refine Program.Follows.bind (acts_writeHeader rootHeader rootSector) fun _ _ ↦ ?_
  refine Program.Follows.bind asks_assemble fun volume hvolume ↦ ?_
  refine Program.Follows.bind (Program.follows_except fun _ ↦ capacity_of_linked) fun root hroot ↦ ?_
  refine Program.Follows.bind (Program.follows_say _) fun _ _ ↦ ?_
  refine Program.Follows.bind (acts_storeMap map volume.freeMapFile) fun _ _ ↦ ?_
  refine Program.Follows.bind (acts_storeDirectory (Nat.le_of_eq hroot) volume.rootFile)
    fun _ _ ↦ ?_
  refine Program.Follows.bind Program.follows_flush fun _ _ ↦ ?_
  exact Program.Follows.bind (Program.follows_say _) fun _ _ ↦ Program.follows_pure hvolume

theorem follows_mount : mount.Follows Volume.mount Volume.Unopened :=
  Program.Follows.bind asks_assemble fun _ h ↦
    Program.Follows.bind (Program.follows_say _) fun _ _ ↦ Program.follows_pure h

/-! ## Open files and sessions -/

def withTable {α : Type} (volume : Volume) (program : OpenTable → Program (α × OpenTable)) :
    Program (α × Volume) := do
  let (a, openTable) ← program volume.openTable
  return (a, { volume with openTable })

def openPath (volume : Volume) (session : Session) (path : String) : Program (Nat × Volume) := do
  let sector ← Program.noteFailure (.openFailed path) (lookup session path)
  withTable volume fun table ↦ openHandle table path sector

def enter (session : Session) (path : String) : Program Session := do
  if path.isEmpty then .fail (.invalidArgument .emptyDirectoryName)
  else
    let sector ← Program.noteFailure (.enterFailed path) (resolve session.directory path)
    Program.say [.entered path sector]
    return ⟨sector⟩

def touch (volume : Volume) (change : String) : Program (List ListedFile) := do
  let files := volume.openTable.list
  Program.say [.touching change]
  Program.say (files.map fun file ↦ .wouldModify file.name file.handle)
  return files

theorem follows_withTable {α : Type} {program : OpenTable → Program (α × OpenTable)}
    {operation : OpenTable → Operation (α × OpenTable)}
    (h : (program volume.openTable).Follows (operation volume.openTable)
      fun (_, table) ↦ table.Bounded) :
    (withTable volume program).Follows (volume.withTable operation)
      fun (_, volume) ↦ volume.openTable.Bounded :=
  Program.Follows.bind h fun _ h ↦ Program.follows_pure h

theorem follows_openPath (hpath : Countable path) (h : volume.openTable.Bounded) :
    (openPath volume session path).Follows (volume.openFile session path)
      fun (_, volume) ↦ volume.openTable.Bounded :=
  Program.Follows.bind (Program.Follows.noteFailure (asks_lookup hpath) _) fun sector _ ↦
    follows_withTable (follows_openHandle h path sector)

theorem follows_enter (session : Session) (path : String) :
    (enter session path).Follows (Volume.enter session path) fun _ ↦ True := by
  rw [enter, Volume.enter]
  cases path.isEmpty with
  | true => exact Program.follows_fail _
  | false =>
    exact Program.Follows.bind (Program.Follows.noteFailure (asks_resolve session.directory path) _)
      fun _ _ ↦ Program.Follows.bind (Program.follows_say _) fun _ _ ↦ Program.follows_pure trivial

theorem follows_touch (volume : Volume) (change : String) :
    (touch volume change).Follows (volume.touch change) fun _ ↦ True :=
  Program.Follows.bind (Program.follows_say _) fun _ _ ↦
    Program.Follows.bind (Program.follows_say _) fun _ _ ↦ Program.follows_pure trivial

end Guarded

end SectorFS
