import SectorFS.Proofs.Discipline
import SectorFS.Proofs.Machine
import SectorFS.Proofs.Tree.Create
import SectorFS.Proofs.Tree.Remove

/-!
The invariant of a machine in use: its device stores a tree, the headers held open are those on the
device, and every session is in a directory of the tree.
-/

namespace SectorFS

open Layout

structure Volume.Current (volume : Volume) (tree : Tree) (device : Device) : Prop where
  map : device.openFile freeMapSector = .ok volume.freeMapFile
  root : device.openFile rootSector = .ok volume.rootFile
  opened : ∀ handle opened, volume.openTable.get? handle = some opened →
    opened.sector ∈ rootSector :: tree.map Node.sector ∧
      device.openFile opened.sector = .ok opened.file

namespace Machine

structure Sound (machine : Machine) (volume : Volume) (tree : Tree) : Prop where
  faultFree : machine.host.device.faults = {}
  stored : tree.Stored machine.host.device
  tidy : tree.Tidy machine.host.device
  mounted : machine.volume? = some volume
  current : volume.Current tree machine.host.device
  sessions : ∀ session ∈ machine.sessions, ∃ parent, tree.HasDirectory session.directory parent

/-- The handles are bound to regular files, as far as they are bound. -/
def KnowsRegular (regular : List Nat) (volume : Volume) (tree : Tree) : Prop :=
  ∀ handle ∈ regular, ∀ opened, volume.openTable.get? handle = some opened →
    ∃ node ∈ tree, node.entry.kind = .regular ∧ node.sector = opened.sector

theorem Sound.knowsRegular_nil {machine : Machine} {volume : Volume} {tree : Tree}
    (_ : machine.Sound volume tree) : KnowsRegular [] volume tree :=
  nofun

/-- What a request does to the contents of the file whose header is stored at `sector`: only a
write through a handle of this very file changes them. -/
def effect (machine : Machine) (sector : UInt32) (request : Request) (bytes : Bytes) : Bytes :=
  match request with
  | .call handle call =>
    match machine.opened? handle with
    | none => bytes
    | some opened =>
      if opened.sector = sector then
        match call.writes? opened.cursor with
        | none => bytes
        | some (data, pos) => bytes.overwrite pos data
      else bytes
  | _ => bytes

theorem effect_of_ne {machine : Machine} {request : Request}
    (h : ∀ handle call, request ≠ .call handle call) (sector : UInt32) (bytes : Bytes) :
    machine.effect sector request bytes = bytes := by
  cases request with
  | call handle call => exact absurd rfl (h handle call)
  | _ => rfl

def removes (machine : Machine) (sector : UInt32) (request : Request) : Bool :=
  ((machine.removal? request).any fun removal ↦ removal.sector == sector) &&
    (step request machine).1.isOk

/-- A regular file that the request does not remove is there after it, under the header it had,
with the contents that the request gives it. -/
def Retains (machine after : Machine) (tree left : Tree) (request : Request) : Prop :=
  ∀ node ∈ tree, node.entry.kind = .regular → machine.removes node.sector request = false →
    node ∈ left ∧ ∀ file, machine.host.device.openFile node.sector = .ok file →
      after.host.device.openFile node.sector = .ok file ∧
        file.contents after.host.device =
          machine.effect node.sector request (file.contents machine.host.device)

end Machine

namespace Tree.Frame

variable {tree left : Tree} {before after : Device} {touched : UInt32 → Prop} {volume : Volume}
  {node : Node} {file : File}
  (frame : tree.Frame before after touched) (hf : before.faults = {}) (hf' : after.faults = {})
include frame hf hf'

theorem tidy (h : tree.Stored before) (hdir : ∀ here parent, tree.HasDirectory here parent →
      ¬touched here) (hmap : ¬touched freeMapSector) (htidy : tree.Tidy before) :
    tree.Tidy after :=
  (frame.alike hf hf' hdir hmap).tidy h htidy

theorem current (h : volume.Current tree before) (hsub : ∀ handle opened,
      volume.openTable.get? handle = some opened →
        opened.sector ∈ rootSector :: left.map Node.sector) : volume.Current left after := by
  refine ⟨?_, ?_, fun handle opened hget ↦ ⟨hsub handle opened hget, ?_⟩⟩
  · rw [frame.openFile_eq hf hf' tree.freeMapSector_mem]
    exact h.map
  · rw [frame.openFile_eq hf hf' (hasDirectory_root tree).mem_sectors]
    exact h.root
  · obtain ⟨hmem, hopen⟩ := h.opened handle opened hget
    rw [frame.openFile_eq hf hf' (List.mem_cons_of_mem _ hmem)]
    exact hopen

theorem openFile_node (hnode : node ∈ tree) (hopen : before.openFile node.sector = .ok file) :
    after.openFile node.sector = .ok file :=
  (frame.openFile_eq hf hf' (mem_sectors_of_mem hnode)).trans hopen

omit hf hf' in
theorem contents_node (hnode : node ∈ tree) (hnot : ¬touched node.sector)
    (hopen : before.openFile node.sector = .ok file) :
    file.contents after = file.contents before := by
  refine File.contents_congr fun t ht ↦ frame.footprint _ (mem_sectors_of_mem hnode) hnot t ?_
  exact List.mem_cons_of_mem _ (Device.dataSectors_of_openFile hopen ▸ ht)

end Tree.Frame

theorem Tree.Stored.frame_of_blocks {tree : Tree} {before after : Device} (h : tree.Stored before)
    (hblocks : after.blocks = before.blocks) : tree.Frame before after fun _ ↦ False := by
  refine h.frame (congrArg Array.size hblocks) fun t _ _ ↦ ?_
  rw [Device.block?, hblocks, Device.block?]

namespace Machine

variable {machine after : Machine} {volume left : Volume} {tree grown : Tree} {request : Request}
  {regular : List Nat} {index : Nat} {path : String}

/-- The device keeps what the tree looks at, and every session stays or moves to a directory. -/
theorem Sound.of_alike (h : machine.Sound volume tree)
    (halike : tree.Alike machine.host.device after.host.device)
    (hf : after.host.device.faults = {}) (hroom : numSectors ≤ after.host.device.blocks.size)
    (hvolume : after.volume? = some left)
    (hopened : ∀ handle opened, left.openTable.get? handle = some opened →
      opened.sector ∈ rootSector :: tree.map Node.sector ∧
        machine.host.device.openFile opened.sector = .ok opened.file)
    (hfiles : left.freeMapFile = volume.freeMapFile ∧ left.rootFile = volume.rootFile)
    (hsessions : ∀ session ∈ after.sessions,
      ∃ parent, tree.HasDirectory session.directory parent) : after.Sound left tree := by
  refine ⟨hf, halike.stored h.stored hroom, halike.tidy h.stored h.tidy, hvolume, ⟨?_, ?_, ?_⟩,
    hsessions⟩
  · rw [halike.openFile_eq tree.freeMapSector_mem, hfiles.1]
    exact h.current.map
  · rw [halike.openFile_eq (Tree.hasDirectory_root tree).mem_sectors, hfiles.2]
    exact h.current.root
  · intro handle opened hget
    obtain ⟨hmem, hopen⟩ := hopened handle opened hget
    exact ⟨hmem, (halike.openFile_eq (List.mem_cons_of_mem _ hmem)).trans hopen⟩

theorem Sound.of_blocks (h : machine.Sound volume tree)
    (hf : after.host.device.faults = {})
    (hblocks : after.host.device.blocks = machine.host.device.blocks)
    (hvolume : after.volume? = some left)
    (hopened : ∀ handle opened, left.openTable.get? handle = some opened →
      opened.sector ∈ rootSector :: tree.map Node.sector ∧
        machine.host.device.openFile opened.sector = .ok opened.file)
    (hfiles : left.freeMapFile = volume.freeMapFile ∧ left.rootFile = volume.rootFile)
    (hsessions : ∀ session ∈ after.sessions,
      ∃ parent, tree.HasDirectory session.directory parent) : after.Sound left tree :=
  h.of_alike ((h.stored.frame_of_blocks hblocks).alike h.faultFree hf (fun _ _ _ ↦ id) id) hf
    (hblocks ▸ h.stored.room) hvolume hopened hfiles hsessions

theorem Sound.sameState (h : machine.Sound volume tree) (hsame : SameState machine after) :
    after.Sound volume tree :=
  h.of_blocks (hsame.device ▸ h.faultFree) (congrArg _ hsame.device) (hsame.volume.trans h.mounted)
    h.current.opened ⟨rfl, rfl⟩ (hsame.sessions ▸ h.sessions)

theorem Sound.retains_of_blocks (h : machine.Sound volume tree)
    (hf : after.host.device.faults = {})
    (hblocks : after.host.device.blocks = machine.host.device.blocks)
    (heffect : ∀ sector bytes, machine.effect sector request bytes = bytes) :
    Retains machine after tree tree request := by
  intro node hnode _ _
  have hframe := h.stored.frame_of_blocks hblocks
  refine ⟨hnode, fun file hopen ↦ ⟨hframe.openFile_node h.faultFree hf hnode hopen, ?_⟩⟩
  rw [heffect, hframe.contents_node hnode id hopen]

/-- The data of regular files is neither in a directory nor in the free map. -/
theorem Sound.regular_apart (h : machine.Sound volume tree) {node : Node} (hnode : node ∈ tree)
    (hkind : node.entry.kind = .regular) {here parent : UInt32}
    (hdir : tree.HasDirectory here parent) : ¬(node.sector = here ∨ node.sector = freeMapSector) := by
  rintro (heq | heq)
  · rw [h.stored.kind_of_hasDirectory hnode (heq ▸ hdir)] at hkind
    contradiction
  · exact (h.stored.sector_ne hnode).1 heq

/-- After the request the machine is sound again, for a tree in which every regular file is kept
that was not to be removed. -/
def Leads (machine after : Machine) (regular : List Nat) (tree : Tree) (request : Request) : Prop :=
  ∃ left grown, after.Sound left grown ∧ KnowsRegular regular left grown ∧
    Retains machine after tree grown request

theorem Sound.leads_of_blocks (h : machine.Sound volume tree)
    (hf : after.host.device.faults = {})
    (hblocks : after.host.device.blocks = machine.host.device.blocks)
    (hvolume : after.volume? = some left)
    (hopened : ∀ handle opened, left.openTable.get? handle = some opened →
      opened.sector ∈ rootSector :: tree.map Node.sector ∧
        machine.host.device.openFile opened.sector = .ok opened.file)
    (hfiles : left.freeMapFile = volume.freeMapFile ∧ left.rootFile = volume.rootFile)
    (hsessions : ∀ session ∈ after.sessions,
      ∃ parent, tree.HasDirectory session.directory parent)
    (hknows : KnowsRegular regular left tree)
    (heffect : ∀ sector bytes, machine.effect sector request bytes = bytes) :
    Leads machine after regular tree request :=
  ⟨left, tree, h.of_blocks hf hblocks hvolume hopened hfiles hsessions, hknows,
    h.retains_of_blocks hf hblocks heffect⟩

theorem Sound.leads_of_sameState (h : machine.Sound volume tree)
    (hknows : KnowsRegular regular volume tree) (hsame : SameState machine after)
    (heffect : ∀ sector bytes, machine.effect sector request bytes = bytes) :
    Leads machine after regular tree request :=
  ⟨volume, tree, h.sameState hsame, hknows,
    h.retains_of_blocks (hsame.device ▸ h.faultFree) (congrArg _ hsame.device) heffect⟩

end Machine

namespace Tree.Stored

variable {tree : Tree} {device : Device} {here parent s : UInt32} {file : File} {table : Directory}
  {entry : Entry} {name path : String} {session : Session} (h : tree.Stored device)
include h

theorem hasDirectory_resolve (hdir : tree.HasDirectory here parent)
    (hresolve : Path.resolve here path device = .ok s) : ∃ above, tree.HasDirectory s above := by
  refine Path.resolve_induction (P := fun s ↦ ∃ above, tree.HasDirectory s above)
    ⟨rootSector, hasDirectory_root tree⟩ ⟨parent, hdir⟩ ?_ hresolve
  rintro here name next ⟨above, habove⟩ henter
  obtain ⟨file, table, entry, hopen, hfind, hkind, rfl⟩ := Path.enter_eq_ok_iff.1 henter
  exact h.hasDirectory_of_entry habove hopen (Directory.mem_of_find? hfind).1 hkind

theorem hasDirectory_locate (hdir : tree.HasDirectory session.directory parent)
    (hlocate : Volume.locate session path device = .ok (s, name)) :
    ∃ above, tree.HasDirectory s above := by
  obtain ⟨directory, -, hresolve⟩ := Volume.locate_eq_ok_iff.1 hlocate
  exact h.hasDirectory_resolve hdir hresolve

theorem node_of_entryAt (hdir : tree.HasDirectory session.directory parent)
    (hentry : Volume.entryAt session path device = .ok entry) (hkind : entry.kind = .regular) :
    ∃ here, ⟨here, entry⟩ ∈ tree := by
  obtain ⟨here, name, file, table, hlocate, hopen, hfind⟩ := Volume.entryAt_eq_ok_iff.1 hentry
  obtain ⟨above, habove⟩ := h.hasDirectory_locate hdir hlocate
  have hcases := h.entry_cases habove hopen (Directory.mem_of_find? hfind).1
  refine ⟨here, (hcases.resolve_left fun hlink ↦ ?_).2⟩
  rw [hkind] at hlink
  exact absurd hlink.2.1 nofun

theorem mem_of_entryAt (hdir : tree.HasDirectory session.directory parent)
    (hentry : Volume.entryAt session path device = .ok entry) :
    entry.sector ∈ rootSector :: tree.map Node.sector := by
  cases hkind : entry.kind with
  | regular =>
    obtain ⟨here, hnode⟩ := h.node_of_entryAt hdir hentry hkind
    exact List.mem_cons_of_mem _ (List.mem_map_of_mem hnode)
  | directory =>
    obtain ⟨here, name, file, table, hlocate, hopen, hfind⟩ := Volume.entryAt_eq_ok_iff.1 hentry
    obtain ⟨above, habove⟩ := h.hasDirectory_locate hdir hlocate
    obtain ⟨up, hup⟩ :=
      h.hasDirectory_of_entry habove hopen (Directory.mem_of_find? hfind).1 hkind
    exact hup.mem_root_cons

end Tree.Stored

end SectorFS
