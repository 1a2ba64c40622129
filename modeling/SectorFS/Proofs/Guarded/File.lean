import SectorFS.Proofs.FreeMap
import SectorFS.Proofs.Guarded.FreeMap

namespace SectorFS

open Layout (sectorSize)

def Device.collect (device : Device) (spans : List Span) : Except Error Bytes :=
  match device.gather spans with
  | (bytes, none) => .ok bytes
  | (_, some error) => .error error

namespace Guarded

def readLoop (file : File) (toRead done offset : Nat) (buf : Bytes) : Program (Nat × Bytes) :=
  if done < toRead then do
    match ← byteToSector file.header offset with
    | none => return (done, buf)
    | some sector =>
      let block ← Program.readSector sector
      let start := offset % sectorSize
      let chunk := min (← sub sectorSize start) (← sub toRead done)
      let buf ← copy buf done (← add done chunk) (← slice block.bytes start (← add start chunk))
      let next ← add done chunk
      let offset ← add offset chunk
      if done < next then readLoop file toRead next offset buf else .trap .stall
  else return (done, buf)
termination_by toRead - done

def readAt (file : File) (buf : Bytes) (pos : Nat) : Program (Nat × Bytes) := do
  if buf.length = 0 ∨ file.length ≤ pos then return (0, buf)
  else readLoop file (min buf.length (← sub file.length pos)) 0 pos buf

def readBytes (file : File) (count pos : Nat) : Program Bytes := do
  let (got, buf) ← readAt file (Bytes.zeros count) pos
  return buf.take got

def readAll (file : File) : Program Bytes := readBytes file file.length 0

/-- The bytes of a sector around a chunk, in the buffer that the chunk goes into. -/
def around (sector : UInt32) (chunk : Nat) (block : Block) : Program Block :=
  if chunk < sectorSize then Program.readSector sector else pure block

def writeLoop (file : File) (data : Bytes) (toWrite done offset : Nat) (block : Block) :
    Program Nat :=
  if done < toWrite then do
    match ← byteToSector file.header offset with
    | none => return done
    | some sector =>
      let start := offset % sectorSize
      let chunk := min (← sub sectorSize start) (← sub toWrite done)
      let block ← around sector chunk block
      let block ← copyBlock block start (← add start chunk)
        (← slice data done (← add done chunk))
      Program.writeSector sector block
      let next ← add done chunk
      let offset ← add offset chunk
      if done < next then writeLoop file data toWrite next offset block else .trap .stall
  else return done
termination_by toWrite - done

def writeAt (file : File) (data : Bytes) (pos : Nat) : Program Nat := do
  if data.length = 0 ∨ file.length ≤ pos then return 0
  else writeLoop file data (min data.length (← sub file.length pos)) 0 pos Block.zero

/-- A file carries the consistency of its header, which what was read always has. -/
def openFile (sector : UInt32) : Program File := do
  let header ← readHeader sector
  if h : header.Consistent then return ⟨sector, header, h⟩ else .trap .range

def readWhole (file : File) (buf : Bytes) (damage : Nat → Nat → Damage) : Program Bytes := do
  let (count, buf) ← readAt file buf 0
  if count = buf.length then return buf
  else .fail (.corruption file.sector (damage count buf.length))

def writeWhole (file : File) (data : Bytes) (damage : Nat → Nat → Damage) : Program Unit := do
  let count ← writeAt file data 0
  if count = data.length then return ()
  else .fail (.corruption file.sector (damage count data.length))

def fetchMap (map : FreeMap) (file : File) : Program FreeMap := do
  return map.overlay (← readWhole file map.bytes .mapHolds)

def loadMap (file : File) : Program FreeMap := fetchMap (.empty Layout.numSectors) file

def storeMap (map : FreeMap) (file : File) : Program Unit :=
  writeWhole file map.bytes .mapTakes

/-! ## The turns of a loop -/

variable {sectors : List UInt32} {sector : UInt32} {pos count : Nat}

theorem cover_eq_cons (h : sectors[pos / sectorSize]? = some sector) (hcount : 0 < count) :
    ∃ fits, Span.cover sectors pos count =
      ⟨sector, pos % sectorSize, min (sectorSize - pos % sectorSize) count, fits⟩ ::
        Span.cover sectors (pos + min (sectorSize - pos % sectorSize) count)
          (count - min (sectorSize - pos % sectorSize) count) := by
  have hlt : pos % sectorSize < sectorSize := Nat.mod_lt _ (by decide)
  refine ⟨by omega, ?_⟩
  induction sectors generalizing pos with
  | nil => contradiction
  | cons first rest ih =>
    by_cases hpos : pos < sectorSize
    · rw [Nat.div_eq_of_lt hpos] at h
      obtain rfl := Option.some.inj h
      simp only [Nat.mod_eq_of_lt hpos]
      rw [Span.cover, if_neg (Nat.ne_of_gt hcount), dif_pos hpos]
      simp only [Nat.min_comm count, List.cons.injEq, true_and]
      -- The rest starts at the next sector, unless nothing is left.
      by_cases hall : count ≤ sectorSize - pos
      · rw [Nat.min_eq_right hall, Nat.sub_self, Span.cover_zero, Span.cover_zero]
      · have hnext : pos + min (sectorSize - pos) count = sectorSize := by omega
        rw [hnext, Span.cover, if_neg (by omega), dif_neg (Nat.lt_irrefl _), Nat.sub_self]
    · have hmod : (pos - sectorSize) % sectorSize = pos % sectorSize :=
        (Nat.mod_eq_sub_mod (Nat.le_of_not_lt hpos)).symm
      have hdiv : pos / sectorSize = (pos - sectorSize) / sectorSize + 1 := by
        simp only [sectorSize] at hpos ⊢
        omega
      rw [hdiv, List.getElem?_cons_succ] at h
      have hrest := ih h (by rw [hmod]; exact hlt)
      simp only [hmod] at hrest
      rw [Span.cover, if_neg (Nat.ne_of_gt hcount), dif_neg hpos, hrest]
      refine congrArg (List.cons _) ?_
      by_cases hleft : count - min (sectorSize - pos % sectorSize) count = 0
      · rw [hleft, Span.cover_zero, Span.cover_zero]
      · rw [Span.cover, if_neg hleft, dif_neg (by omega), Nat.sub_add_comm (Nat.le_of_not_lt hpos)]

theorem collect_cons (device : Device) (span : Span) (rest : List Span) :
    device.collect (span :: rest) = do
      let block ← device.read span.sector
      let bytes ← device.collect rest
      return span.slice block ++ bytes := by
  rw [Device.collect, Device.gather]
  cases device.read span.sector with
  | error error => rfl
  | ok block =>
    change _ = (device.collect rest >>= _)
    rw [Device.collect]
    cases device.gather rest with
    | mk bytes stop => cases stop <;> rfl

variable {file : File} {done offset : Nat} {buf data : Bytes}

theorem length_le (file : File) : file.length ≤ Layout.maxFileSize := file.consistent.1

theorem add_eq_ok_of_le {a b : Nat} (h : a + b ≤ Layout.maxFileSize) : add a b = .ok (a + b) :=
  add_eq_ok (Nat.lt_of_le_of_lt h (by decide))

/-- What a turn of a loop is about: the next span of the range. -/
theorem next_span (hfile : offset + count ≤ file.length) (hcount : 0 < count) :
    ∃ span : Span, 0 < span.length ∧ span.length ≤ count ∧ span.start = offset % sectorSize ∧
      span.length = min (sectorSize - span.start) count ∧
      byteToSector file.header offset = .ok (some span.sector) ∧
      Span.cover file.header.dataSectors offset count =
        span :: Span.cover file.header.dataSectors (offset + span.length) (count - span.length) := by
  obtain ⟨sector, hsector, hbyte⟩ := byteToSector_eq file.consistent
    (show offset < file.header.length by change offset < file.length; omega)
  obtain ⟨fits, hcover⟩ := cover_eq_cons hsector hcount
  have hmod : offset % sectorSize < sectorSize := Nat.mod_lt _ (by decide)
  refine ⟨⟨sector, offset % sectorSize, min (sectorSize - offset % sectorSize) count, fits⟩, ?_,
    Nat.min_le_right _ _, rfl, rfl, hbyte, hcover⟩
  simp only [sectorSize] at hmod ⊢
  omega

/-! ## Reading -/

theorem readLoop_eq {span : Span} (hfile : offset + count ≤ file.length)
    (hbuf : done + count ≤ buf.length) (hdone : done ≤ offset) (hpos : 0 < span.length)
    (hle : span.length ≤ count) (hstart : span.start = offset % sectorSize)
    (hlength : span.length = min (sectorSize - span.start) count)
    (hbyte : byteToSector file.header offset = .ok (some span.sector)) :
    readLoop file (done + count) done offset buf =
      Program.readSector span.sector >>= fun block ↦
        readLoop file (done + count) (done + span.length) (offset + span.length)
          (buf.overwrite done (span.slice block)) := by
  have hmax := length_le file
  have hfits := span.fits
  have hleft : done + count - done = count := Nat.add_sub_cancel_left done count
  rw [readLoop, if_pos (by omega), Program.guarded_bind hbyte]
  refine congrArg (Program.readSector span.sector >>= ·) (funext fun block ↦ ?_)
  have hslice : slice block.bytes span.start (span.start + span.length) = .ok (span.slice block) := by
    rw [slice_eq_ok (Nat.le_add_right _ _) (by rw [block.length_bytes]; exact hfits),
      Nat.add_sub_cancel_left, Span.slice]
  have hword : span.start + span.length ≤ Layout.maxFileSize := Nat.le_trans hfits (by decide)
  dsimp only
  rw [← hstart, Program.guarded_bind (sub_eq_ok (by omega)),
    Program.guarded_bind (sub_eq_ok (Nat.le_add_right _ _)), hleft, ← hlength,
    Program.guarded_bind (add_eq_ok_of_le (by omega)), Program.guarded_bind (add_eq_ok_of_le hword),
    Program.guarded_bind hslice,
    Program.guarded_bind (copy_eq_ok (by rw [Span.length_slice]) (by omega)),
    Program.guarded_bind (add_eq_ok_of_le (by omega)),
    Program.guarded_bind (add_eq_ok_of_le (by omega)), if_pos (by omega)]

theorem asks_readLoop (hfile : offset + count ≤ file.length) (hbuf : done + count ≤ buf.length)
    (hdone : done ≤ offset) : (readLoop file (done + count) done offset buf).Asks
      (fun device ↦ do
        let bytes ← device.collect (Span.cover file.header.dataSectors offset count)
        return (done + count, buf.overwrite done bytes))
      fun (n, after) ↦ n = done + count ∧ after.length = buf.length := by
  -- On what is left of the range, which every turn shortens by the span that it transfers.
  induction count using Nat.strongRecOn generalizing done offset buf with
  | _ count ih =>
    by_cases hcount : 0 < count
    · obtain ⟨span, hpos, hle, hstart, hlength, hbyte, hcover⟩ := next_span hfile hcount
      have hask : (fun device : Device ↦ (do
          let bytes ← device.collect (Span.cover file.header.dataSectors offset count)
          return (done + count, buf.overwrite done bytes) : Except Error (Nat × Bytes))) =
          fun device ↦ do
            let block ← device.read span.sector
            let bytes ← device.collect (Span.cover file.header.dataSectors (offset + span.length)
              (count - span.length))
            return (done + count, (buf.overwrite done (span.slice block)).overwrite
              (done + span.length) bytes) := by
        funext device
        simp only [hcover, collect_cons, bind_assoc, pure_bind, Bytes.overwrite_append,
          Span.length_slice]
      rw [hask, readLoop_eq hfile hbuf hdone hpos hle hstart hlength hbyte]
      refine Program.Asks.bind (Program.follows_readSector span.sector) fun block _ ↦ ?_
      have hrest := @ih (count - span.length) (by omega) (done + span.length)
        (offset + span.length) (buf.overwrite done (span.slice block)) (by omega)
        (by rw [Bytes.length_overwrite]; omega) (by omega)
      rw [Bytes.length_overwrite, show done + span.length + (count - span.length) = done + count
        by omega] at hrest
      exact hrest
    · obtain rfl : count = 0 := by omega
      have hask : (fun device : Device ↦ (do
          let bytes ← device.collect (Span.cover file.header.dataSectors offset 0)
          return (done + 0, buf.overwrite done bytes) : Except Error (Nat × Bytes))) =
          fun _ ↦ .ok (done, buf) := by
        funext device
        rw [Span.cover_zero]
        change Except.ok (done, buf.overwrite done []) = _
        rw [Bytes.overwrite_nil]
      rw [hask, readLoop, if_neg (by omega)]
      exact Program.asks_pure ⟨rfl, rfl⟩

theorem spans_of_outside (h : count = 0 ∨ file.length ≤ pos) :
    file.extent pos count = 0 ∧ file.spans pos count = [] := by
  have hextent : file.extent pos count = 0 := by
    rw [File.extent]
    omega
  exact ⟨hextent, by rw [File.spans, hextent, Span.cover_zero]⟩

theorem asks_readAt (file : File) (buf : Bytes) (pos : Nat) :
    (readAt file buf pos).Asks
      (fun device ↦ do
        let bytes ← file.read buf.length pos device
        return (file.extent pos buf.length, buf.overwrite 0 bytes))
      fun (n, after) ↦ n = file.extent pos buf.length ∧ after.length = buf.length := by
  rw [readAt]
  by_cases hout : buf.length = 0 ∨ file.length ≤ pos
  · obtain ⟨hextent, hspans⟩ := spans_of_outside hout
    have hask : (fun device : Device ↦ (do
        let bytes ← file.read buf.length pos device
        return (file.extent pos buf.length, buf.overwrite 0 bytes) : Except Error (Nat × Bytes))) =
        fun _ ↦ .ok (0, buf) := by
      funext device
      rw [File.read, hspans, hextent]
      change Except.ok (0, buf.overwrite 0 []) = _
      rw [Bytes.overwrite_nil]
    rw [hask, if_pos hout, hextent]
    exact Program.asks_pure ⟨rfl, rfl⟩
  · rw [not_or] at hout
    have hloop : (readLoop file (0 + file.extent pos buf.length) 0 pos buf).Asks _ _ :=
      asks_readLoop (by rw [File.extent]; omega) (by rw [File.extent]; omega) (Nat.zero_le _)
    rw [Nat.zero_add] at hloop
    rw [if_neg (not_or.2 hout), Program.guarded_bind (sub_eq_ok (by omega))]
    exact hloop

theorem asks_readBytes (file : File) (count pos : Nat) :
    (readBytes file count pos).Asks (file.read count pos)
      fun bytes ↦ bytes.length = file.extent pos count := by
  have hread := asks_readAt file (Bytes.zeros count) pos
  rw [Bytes.length_zeros] at hread
  have hask : file.read count pos = fun device ↦ (do
      let bytes ← file.read count pos device
      return (file.extent pos count, (Bytes.zeros count).overwrite 0 bytes)) >>=
        fun (got, buf) ↦ .ok (buf.take got) := by
    funext device
    cases hr : file.read count pos device with
    | error error => rfl
    | ok bytes =>
      have hlen := File.length_of_read hr
      have hle : bytes.length ≤ (Bytes.zeros count).length := by
        rw [hlen, Bytes.length_zeros]
        exact Nat.min_le_left _ _
      change _ = Except.ok (((Bytes.zeros count).overwrite 0 bytes).take (file.extent pos count))
      rw [← hlen, Bytes.overwrite_zero hle, List.take_left]
  rw [hask]
  refine Program.Asks.bind hread fun (got, buf) h ↦ Program.asks_pure ?_
  rw [List.length_take, h.1, h.2]
  exact Nat.min_eq_left (Nat.min_le_left _ _)

theorem asks_readAll (file : File) : (readAll file).Asks file.readAll fun bytes ↦
    bytes.length = file.length :=
  (asks_readBytes file file.length 0).mono fun _ h ↦ h.trans (Nat.min_self _)

/-! ## Writing -/

theorem writeLoop_eq {span : Span} (hfile : offset + count ≤ file.length)
    (hdata : done + count ≤ data.length) (hdone : done ≤ offset) (hpos : 0 < span.length)
    (hle : span.length ≤ count) (hstart : span.start = offset % sectorSize)
    (hlength : span.length = min (sectorSize - span.start) count)
    (hbyte : byteToSector file.header offset = .ok (some span.sector)) (block : Block) :
    writeLoop file data (done + count) done offset block =
      around span.sector span.length block >>= fun old ↦
        let block := old.overwrite span.start ((data.drop done).take span.length)
        Program.writeSector span.sector block >>= fun _ ↦
          writeLoop file data (done + count) (done + span.length) (offset + span.length) block := by
  have hmax := length_le file
  have hfits := span.fits
  have hleft : done + count - done = count := Nat.add_sub_cancel_left done count
  have hpiece : ((data.drop done).take span.length).length = span.length := by
    rw [List.length_take, List.length_drop]
    omega
  have hslice : slice data done (done + span.length) = .ok ((data.drop done).take span.length) := by
    rw [slice_eq_ok (Nat.le_add_right _ _) (by omega), Nat.add_sub_cancel_left]
  have hword : span.start + span.length ≤ Layout.maxFileSize := Nat.le_trans hfits (by decide)
  rw [writeLoop, if_pos (by omega), Program.guarded_bind hbyte]
  dsimp only
  rw [← hstart, Program.guarded_bind (sub_eq_ok (by omega)),
    Program.guarded_bind (sub_eq_ok (Nat.le_add_right _ _)), hleft, ← hlength]
  refine congrArg (around span.sector span.length block >>= ·) (funext fun old ↦ ?_)
  rw [Program.guarded_bind (add_eq_ok_of_le hword),
    Program.guarded_bind (add_eq_ok_of_le (by omega)), Program.guarded_bind hslice,
    Program.guarded_bind (copyBlock_eq_ok (by rw [hpiece]) hfits)]
  refine congrArg (Program.writeSector span.sector _ >>= ·) (funext fun _ ↦ ?_)
  rw [Program.guarded_bind (add_eq_ok_of_le (by omega)),
    Program.guarded_bind (add_eq_ok_of_le (by omega)), if_pos (by omega)]

theorem acts_writeLoop (hfile : offset + count ≤ file.length) (hdata : done + count ≤ data.length)
    (hdone : done ≤ offset) (block : Block) :
    (writeLoop file data (done + count) done offset block).Acts
      (do
        Action.scatter (Span.cover file.header.dataSectors offset count) (data.drop done)
        return done + count)
      fun n ↦ n = done + count := by
  induction count using Nat.strongRecOn generalizing done offset block with
  | _ count ih =>
    by_cases hcount : 0 < count
    · obtain ⟨span, hpos, hle, hstart, hlength, hbyte, hcover⟩ := next_span hfile hcount
      have hrest := @ih (count - span.length) (by omega) (done + span.length)
        (offset + span.length) (by omega) (by omega) (by omega)
      rw [show done + span.length + (count - span.length) = done + count by omega,
        ← List.drop_drop] at hrest
      rw [writeLoop_eq hfile hdata hdone hpos hle hstart hlength hbyte, hcover, Action.scatter,
        around]
      by_cases hpart : span.length < sectorSize
      · rw [if_pos hpart, if_pos hpart, bind_assoc]
        refine Program.Acts.bind (Program.follows_readSector span.sector).acts fun old _ ↦ ?_
        rw [bind_assoc]
        exact Program.Acts.bind (Program.follows_writeSector span.sector _) fun _ _ ↦ hrest _
      · -- A chunk that fills the sector leaves nothing of what the buffer held before.
        have hfits := span.fits
        have hzero : span.start = 0 := by omega
        have hpiece : ((data.drop done).take span.length).length = sectorSize := by
          rw [List.length_take, List.length_drop]
          omega
        rw [if_neg hpart, pure_bind, if_neg hpart, pure_bind, bind_assoc, hzero]
        rw [Block.overwrite_full hpiece Block.zero block]
        exact Program.Acts.bind (Program.follows_writeSector span.sector _) fun _ _ ↦ hrest _
    · obtain rfl : count = 0 := by omega
      rw [writeLoop, if_neg (by omega), Span.cover_zero]
      exact Program.acts_pure rfl

theorem acts_writeAt (file : File) (data : Bytes) (pos : Nat) :
    (writeAt file data pos).Acts (file.write data pos)
      fun n ↦ n = file.extent pos data.length := by
  rw [writeAt]
  by_cases hout : data.length = 0 ∨ file.length ≤ pos
  · obtain ⟨hextent, hspans⟩ := spans_of_outside hout
    rw [if_pos hout, File.write, hspans, hextent]
    exact Program.acts_pure rfl
  · rw [not_or] at hout
    have hloop : (writeLoop file data (0 + file.extent pos data.length) 0 pos Block.zero).Acts _ _ :=
      acts_writeLoop (by rw [File.extent]; omega) (by rw [File.extent]; omega) (Nat.zero_le _)
        Block.zero
    rw [Nat.zero_add] at hloop
    rw [if_neg (not_or.2 hout), Program.guarded_bind (sub_eq_ok (by omega))]
    exact hloop

/-! ## Whole records -/

def wholeFrom (file : File) (count : Nat) (damage : Nat → Nat → Damage) (device : Device) :
    Except Error Bytes := do
  let bytes ← file.read count 0 device
  if bytes.length = count then return bytes
  else throw (.corruption file.sector (damage bytes.length count))

theorem asks_readWhole (file : File) (buf : Bytes) (damage : Nat → Nat → Damage) :
    (readWhole file buf damage).Asks (wholeFrom file buf.length damage)
      fun bytes ↦ bytes.length = buf.length := by
  have hask : wholeFrom file buf.length damage = fun device ↦ (do
      let bytes ← file.read buf.length 0 device
      return (file.extent 0 buf.length, buf.overwrite 0 bytes)) >>= fun (count, after) ↦
        if count = after.length then .ok after
        else .error (.corruption file.sector (damage count after.length)) := by
    funext device
    rw [wholeFrom]
    cases hr : file.read buf.length 0 device with
    | error error => rfl
    | ok bytes =>
      have hlen := File.length_of_read hr
      change (if bytes.length = buf.length then _ else _) =
        if file.extent 0 buf.length = (buf.overwrite 0 bytes).length then _ else _
      rw [Bytes.length_overwrite, ← hlen]
      by_cases hall : bytes.length = buf.length
      · rw [if_pos hall, if_pos hall, Bytes.overwrite_zero (Nat.le_of_eq hall),
          List.drop_of_length_le (Nat.le_of_eq hall.symm), List.append_nil]
        rfl
      · rw [if_neg hall, if_neg hall]
        rfl
  rw [hask]
  refine Program.Asks.bind (asks_readAt file buf 0) fun (count, after) hread ↦ ?_
  dsimp only at hread ⊢
  split
  · exact Program.asks_pure hread.2
  · exact Program.asks_fail _

theorem acts_writeWhole (file : File) (data : Bytes) (damage : Nat → Nat → Damage) :
    (writeWhole file data damage).Acts
      (do
        let took ← file.write data 0
        if took = data.length then pure ()
        else throw (.corruption file.sector (damage took data.length)))
      fun _ ↦ True := by
  refine Program.Acts.bind (acts_writeAt file data 0) fun count _ ↦ ?_
  split
  · exact Program.acts_pure trivial
  · exact Program.acts_fail _

/-! ## Opening, and the free map in its file -/

theorem asks_openFile (sector : UInt32) :
    (openFile sector).Asks (·.openFile sector) fun _ ↦ True := by
  have hask : (fun device : Device ↦ device.openFile sector) = fun device ↦
      device.readHeader sector >>= fun header ↦
        if h : header.Consistent then .ok ⟨sector, header, h⟩ else .error (.invalidSector sector) := by
    funext device
    cases hr : device.readHeader sector with
    | error error =>
      change _ = Except.error error
      unfold Device.openFile
      split
      · next e he => exact congrArg Except.error (Except.error.inj (he.symm.trans hr))
      · next header he => cases he.symm.trans hr
    | ok header =>
      change _ = dite _ _ _
      rw [Device.openFile_of_readHeader hr, dif_pos (Device.consistent_of_readHeader hr)]
  rw [hask, openFile]
  refine Program.Asks.bind (asks_readHeader sector) fun header hc ↦ ?_
  rw [dif_pos hc, dif_pos hc]
  exact Program.asks_pure trivial

theorem scatter_take {spans : List Span} {n : Nat} (h : Span.totalLength spans ≤ n) (data : Bytes) :
    Action.scatter spans (data.take n) = Action.scatter spans data := by
  induction spans generalizing n data with
  | nil => rfl
  | cons span rest ih =>
    rw [Span.totalLength] at h
    rw [Action.scatter, Action.scatter, List.take_take, Nat.min_eq_left (by omega), List.drop_take,
      ih (by omega)]

theorem write_take (file : File) (data : Bytes) :
    file.write (data.take file.length) 0 = file.write data 0 := by
  have hextent : file.extent 0 (data.take file.length).length = file.extent 0 data.length := by
    rw [File.extent, File.extent, List.length_take]
    omega
  have hspans : file.spans 0 (data.take file.length).length = file.spans 0 data.length := by
    rw [File.spans, File.spans, hextent]
  rw [File.write, File.write, hextent, hspans, scatter_take]
  rw [File.totalLength_spans, File.extent]
  omega

theorem asks_fetchMap (map : FreeMap) (file : File) :
    (fetchMap map file).Asks
      (fun device ↦ match map.fetch file device with
        | (fetched, outcome) => outcome.map fun _ ↦ fetched)
      fun fetched ↦ fetched.count = map.count := by
  have hask : (fun device ↦ match map.fetch file device with
      | (fetched, outcome) => outcome.map fun _ ↦ fetched) = fun device ↦
        wholeFrom file map.bytes.length .mapHolds device >>= fun bits ↦ .ok (map.overlay bits) := by
    funext device
    rw [FreeMap.fetch, wholeFrom, File.read, FreeMap.length_bytes]
    cases device.gather (file.spans 0 map.size) with
    | mk bytes stop =>
      cases stop with
      | some error => rfl
      | none =>
        change _ = (if bytes.length = map.size then _ else _) >>= _
        dsimp only
        split <;> rfl
  rw [hask]
  exact Program.Asks.bind (asks_readWhole file map.bytes .mapHolds) fun _ _ ↦ Program.asks_pure rfl

theorem asks_loadMap (file : File) :
    (loadMap file).Asks (FreeMap.load file) fun map ↦ map.count = Layout.numSectors :=
  asks_fetchMap (.empty Layout.numSectors) file

theorem acts_storeMap (map : FreeMap) (file : File) :
    (storeMap map file).Acts (map.store file) fun _ ↦ True := by
  have hwrite := acts_writeWhole file map.bytes .mapTakes
  rw [FreeMap.length_bytes] at hwrite
  rw [FreeMap.store, FreeMap.firstBytes_eq_take, write_take]
  exact hwrite

end Guarded

end SectorFS
