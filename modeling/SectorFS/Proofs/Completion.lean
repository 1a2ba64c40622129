import SectorFS.Proofs.Guarded.Machine

namespace SectorFS

open Layout Guarded

structure Header.Completes (header : Header) : Prop where
  encode : ∃ block, encodeHeader header = .ok block
  dataSectors : ∃ sectors, Guarded.dataSectors header = .ok sectors
  sectorAt : ∀ pos, ∃ sector?, byteToSector header pos = .ok sector?
  release : ∀ map, (Guarded.release map header).Safe fun _ ↦ True
  print : (printHeader header).Safe fun _ ↦ True

structure File.Completes (file : File) : Prop where
  readAt : ∀ buf pos, (Guarded.readAt file buf pos).Safe fun (count, after) ↦
    count ≤ buf.length ∧ after.length = buf.length
  readAll : (Guarded.readAll file).Safe fun bytes ↦ bytes.length = file.length
  writeAt : ∀ data pos, (Guarded.writeAt file data pos).Safe fun count ↦ count ≤ data.length
  fetchMap : ∀ map, (Guarded.fetchMap map file).Safe fun _ ↦ True
  storeMap : ∀ map, (Guarded.storeMap map file).Safe fun _ ↦ True

structure Directory.Completes (directory : Directory) : Prop where
  find : ∀ name, ∃ entry?, findEntry directory name = .ok entry?
  list : ∃ entries, Guarded.list directory = .ok entries
  add : ∀ name sector kind, (addEntry directory name sector kind).Safe fun _ ↦ True
  remove : ∀ name, (removeEntry directory name).Safe fun _ ↦ True
  fetch : ∀ file, (fetchDirectory directory file).Safe fun _ ↦ True
  store : ∀ file, (storeDirectory directory file).Safe fun _ ↦ True
  print : (printDirectory directory).Safe fun _ ↦ True

theorem Header.Consistent.completes {header : Header} (h : header.Consistent) :
    header.Completes where
  encode := ⟨_, encodeHeader_eq header⟩
  dataSectors := ⟨_, dataSectors_eq h⟩
  sectorAt := fun pos ↦ by
    by_cases hpos : header.length ≤ pos
    · exact ⟨_, byteToSector_of_le hpos⟩
    · obtain ⟨sector, -, hsector⟩ := byteToSector_eq h (Nat.lt_of_not_le hpos)
      exact ⟨_, hsector⟩
  release := fun map ↦ by
    rw [release_eq map h]
    exact Program.safe_ofExcept fun _ _ ↦ trivial
  print := (asks_printHeader h).safe

theorem File.completes (file : File) : file.Completes := by
  constructor
  · intro buf pos
    refine (asks_readAt file buf pos).safe.mono fun (count, after) h ↦ ?_
    exact ⟨Nat.le_trans (Nat.le_of_eq h.1) (Nat.min_le_left _ _), h.2⟩
  · exact (asks_readAll file).safe
  · intro data pos
    refine (acts_writeAt file data pos).safe.mono fun count h ↦ ?_
    exact Nat.le_trans (Nat.le_of_eq h) (Nat.min_le_left _ _)
  · intro map
    exact (asks_fetchMap map file).safe.mono fun _ _ ↦ trivial
  · intro map
    exact (acts_storeMap map file).safe

theorem Directory.completes {directory : Directory} (h : directory.capacity ≤ directorySlots) :
    directory.Completes where
  find := fun name ↦ ⟨_, findEntry_eq directory name⟩
  list := ⟨_, list_eq directory⟩
  add := fun name sector kind ↦ by
    rw [addEntry_eq]
    exact Program.safe_ofExcept fun _ _ ↦ trivial
  remove := fun name ↦ by
    rw [removeEntry_eq]
    exact Program.safe_ofExcept fun _ _ ↦ trivial
  fetch := fun file ↦ (asks_fetchDirectory h file).safe.mono fun _ _ ↦ trivial
  store := fun file ↦ (acts_storeDirectory h file).safe
  print := (asks_printDirectory directory).safe

namespace Machine

/-- No request traps, and nothing that a request uses does. A program that serves requests is safe on
any device; on the devices as they are modelled it gives the answers of the machine and leaves its
device and log. The headers that it uses were decoded or allocated, and are consistent. -/
theorem never_traps {requests : List Request} (h : ∀ request ∈ requests, request.Fits) :
    (serveAll requests {}).Safe (fun _ ↦ True) ∧
      (∀ device, ∃ kept, (serveAll requests {}).run { device } =
        .ok (.ok ((run requests (start device)).1, kept), (run requests (start device)).2.host)) ∧
      (∀ sector bytes, (decodeHeader sector bytes).Safe Header.Completes) ∧
      (∀ map numBytes, (allocate map numBytes).Safe fun (header, _) ↦ header.Completes) ∧
      (∀ file : File, file.Completes) ∧
      ∀ directory : Directory, directory.capacity = directorySlots → directory.Completes := by
  have hkept : Kept.Bounded {} := nofun
  refine ⟨(safe_serveAll h hkept).mono fun _ _ ↦ trivial,
    fun device ↦ ⟨(run requests (start device)).2.kept, ?_⟩, fun sector bytes ↦ ?_,
    fun map numBytes ↦ ?_, File.completes, fun _ hcapacity ↦ Directory.completes hcapacity.le⟩
  · exact @run_serveAll _ h (start device) hkept
  · rw [decodeHeader_eq]
    exact Program.safe_ofExcept fun _ hdecode ↦ (Header.consistent_of_decode hdecode).completes
  · rw [allocate_eq]
    exact Program.safe_ofExcept fun _ hallocate ↦ (FreeMap.of_allocate hallocate).1.completes

/-- Positions at the end of the machine's words, and a path without a final component. -/
def probing : List Request :=
  [.format, .createFile 0 "a" 200, .openFile 0 "a", .call 0 (.seek (wordLimit - 1)),
    .call 0 (.read 5), .call 0 .tell, .call 0 (.writeAt [1] (wordLimit - 1)), .remove 0 "//"]

theorem never_traps_probing :
    (∀ request ∈ probing, request.Fits) ∧ ∃ kept host,
      (serveAll probing {}).run { device := .blank 1024 128 } = .ok (.ok ([.ok .done, .ok .done,
        .ok (.number 0), .ok (.ofHandle .done), .ok (.ofHandle (.bytes [])),
        .ok (.ofHandle (.number (wordLimit - 1))), .ok (.ofHandle (.number 0)),
        .error (.refused (.invalidArgument (.noFinalComponent "//")))], kept), host) := by
  have hfits : ∀ request ∈ probing, request.Fits := by decide
  obtain ⟨-, hrun, -⟩ := never_traps hfits
  obtain ⟨kept, hkept⟩ := hrun (.blank 1024 128)
  have hanswers : (run probing (start (.blank 1024 128))).1 = [.ok .done, .ok .done,
      .ok (.number 0), .ok (.ofHandle .done), .ok (.ofHandle (.bytes [])),
      .ok (.ofHandle (.number (wordLimit - 1))), .ok (.ofHandle (.number 0)),
      .error (.refused (.invalidArgument (.noFinalComponent "//")))] := by decide +kernel
  rw [hanswers] at hkept
  exact ⟨hfits, kept, _, hkept⟩

end Machine

end SectorFS
