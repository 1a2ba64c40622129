import SectorFS.Proofs.Guarded.Directory
import SectorFS.Volume.Report

namespace SectorFS

open Layout

namespace Guarded

def Countable (path : String) : Prop := byteLength path.toList < wordLimit

def step (directory : UInt32) (name : String) : Program UInt32 := do
  let (_, table) ← openDirectory directory
  match ← findEntry table name with
  | none => .fail (.notFound name)
  | some entry =>
    match entry.kind with
    | .regular => .fail (.notDirectory name)
    | .directory => return entry.sector

def resolve (start : UInt32) (path : String) : Program UInt32 :=
  (Path.components path).foldlM step (if Path.isAbsolute path then rootSector else start)

def locateEntry (session : Session) (path : String) : Program (UInt32 × String) := do
  let (parent, name) ← splitPath path
  return (← resolve session.directory parent, name)

def lookup (session : Session) (path : String) : Program UInt32 := do
  let (parent, name) ← locateEntry session path
  let (_, directory) ← openDirectory parent
  match ← findEntry directory name with
  | none => .fail (.notFound name)
  | some entry => return entry.sector

variable {session : Session} {path : String} {volume : Volume}

theorem asks_step (directory : UInt32) (name : String) :
    (step directory name).Asks (Path.enter · directory name) fun _ ↦ True := by
  refine Program.Asks.bind (asks_openDirectory directory) fun (_, table) _ ↦ ?_
  dsimp only
  rw [Program.guarded_bind (findEntry_eq table name)]
  cases table.find? name with
  | none => exact Program.asks_fail _
  | some entry =>
    dsimp only
    cases entry.kind with
    | regular => exact Program.asks_fail _
    | directory => exact Program.asks_pure trivial

theorem asks_resolve (start : UInt32) (path : String) :
    (resolve start path).Asks (Path.resolve start path) fun _ ↦ True := by
  change ((Path.components path).foldlM step _).Asks
    (fun device ↦ (Path.components path).foldlM (Path.enter device) _) _
  generalize (if Path.isAbsolute path then rootSector else start) = here
  induction Path.components path generalizing here with
  | nil => exact Program.asks_pure trivial
  | cons name rest ih =>
    simp only [List.foldlM_cons]
    exact Program.Asks.bind (asks_step here name) fun next _ ↦ ih next

theorem asks_locateEntry (h : Countable path) :
    (locateEntry session path).Asks (Volume.locate session path) fun _ ↦ True := by
  rw [locateEntry, splitPath_eq path h]
  exact Program.Asks.bind (Program.follows_except fun _ _ ↦ trivial) fun (parent, name) _ ↦
    Program.Asks.bind (asks_resolve session.directory parent) fun _ _ ↦ Program.asks_pure trivial

theorem asks_lookup (h : Countable path) :
    (lookup session path).Asks (Volume.lookup session path) fun _ ↦ True := by
  refine Program.Asks.bind (asks_locateEntry h) fun (parent, name) _ ↦ ?_
  refine Program.Asks.bind (asks_openDirectory parent) fun (_, directory) _ ↦ ?_
  dsimp only
  rw [Program.guarded_bind (findEntry_eq directory name)]
  cases directory.find? name with
  | none => exact Program.asks_fail _
  | some entry => exact Program.asks_pure trivial

def printMap (map : FreeMap) : Guarded String := do
  return "Bitmap set:" ++ String.join (((← scan map).filter fun (_, used) ↦ used).map
    fun (sector, _) ↦ s!" {sector.toNat}")

def listSession (session : Session) : Program (List ListedEntry) := do
  let (_, directory) ← openDirectory session.directory
  let entries ← list directory
  Program.say (entries.map fun entry ↦ .listed entry.name)
  return entries

def listRoot (volume : Volume) : Program (List ListedEntry) := do
  list (← readDirectory volume.rootFile)

def renderVolume (volume : Volume) (session : Session) : Program String := do
  let mapFile ← printHeader volume.freeMapFile.header
  let directoryFile ← printHeader (← readHeader session.directory)
  let map ← printMap (← loadMap volume.freeMapFile)
  let (_, directory) ← openDirectory session.directory
  let table ← printDirectory directory
  return "Bit map file header:\n" ++ mapFile ++ "Directory file header:\n" ++ directoryFile ++
    map ++ "\n" ++ table

def print (volume : Volume) (session : Session) : Program String := do
  let text ← renderVolume volume session
  Program.say [.printed text]
  return text

def numFree (volume : Volume) : Program Nat := do numClear (← loadMap volume.freeMapFile)

theorem printMap_eq (map : FreeMap) : printMap map = .ok map.render := by
  rw [printMap, scan_eq, ok_bind, FreeMap.render, FreeMap.usedSectors_eq_filter, List.filter_map,
    List.map_map]
  rfl

theorem follows_listSession (session : Session) :
    (listSession session).Follows (Volume.list session) fun _ ↦ True := by
  refine Program.Follows.bind (asks_openDirectory session.directory) fun (_, directory) _ ↦ ?_
  dsimp only
  rw [Program.guarded_bind (list_eq directory), Directory.list, List.map_map]
  exact Program.Follows.bind (Program.follows_say _) fun _ _ ↦ Program.follows_pure trivial

theorem asks_listRoot (volume : Volume) :
    (listRoot volume).Asks volume.listRoot fun _ ↦ True := by
  refine Program.Asks.bind (asks_readDirectory volume.rootFile) fun directory _ ↦ ?_
  rw [list_eq]
  exact Program.asks_pure trivial

theorem asks_renderVolume (volume : Volume) (session : Session) :
    (renderVolume volume session).Asks (volume.render session) fun _ ↦ True := by
  refine Program.Asks.bind (asks_printHeader volume.freeMapFile.consistent) fun mapFile _ ↦ ?_
  refine Program.Asks.bind (asks_readHeader session.directory) fun header hc ↦ ?_
  refine Program.Asks.bind (asks_printHeader hc) fun directoryFile _ ↦ ?_
  refine Program.Asks.bind (asks_loadMap volume.freeMapFile) fun map _ ↦ ?_
  rw [Program.guarded_bind (printMap_eq map)]
  refine Program.Asks.bind (asks_openDirectory session.directory) fun (_, directory) _ ↦ ?_
  exact Program.Asks.bind (asks_printDirectory directory) fun table _ ↦ Program.asks_pure trivial

theorem follows_print (volume : Volume) (session : Session) :
    (print volume session).Follows (volume.print session) fun _ ↦ True :=
  Program.Follows.bind (asks_renderVolume volume session) fun _ _ ↦
    Program.Follows.bind (Program.follows_say _) fun _ _ ↦ Program.follows_pure trivial

theorem asks_numFree (volume : Volume) :
    (numFree volume).Asks volume.numFree fun _ ↦ True := by
  refine Program.Asks.bind (asks_loadMap volume.freeMapFile) fun map _ ↦ ?_
  rw [numClear_eq]
  exact Program.asks_pure trivial

end Guarded

end SectorFS
