import SectorFS.Header
import SectorFS.Span

namespace SectorFS

open Layout (sectorSize)

structure File where
  /-- Where the header is stored. -/
  sector : UInt32
  header : Header
  consistent : header.Consistent
  deriving DecidableEq, Repr

def Device.openFile (device : Device) (sector : UInt32) : Except Error File :=
  match h : device.readHeader sector with
  | .error error => .error error
  | .ok header => .ok ⟨sector, header, Device.consistent_of_readHeader h⟩

namespace File

def length (file : File) : Nat := file.header.length

def extent (file : File) (pos count : Nat) : Nat := min count (file.length - pos)

/-- Where the bytes from `pos` on are, `count` of them or as many as the file has. -/
def spans (file : File) (pos count : Nat) : List Span :=
  Span.cover file.header.dataSectors pos (file.extent pos count)

def read (file : File) (count pos : Nat) (device : Device) : Except Error Bytes :=
  match device.gather (file.spans pos count) with
  | (bytes, none) => .ok bytes
  | (_, some error) => .error error

def readAll (file : File) (device : Device) : Except Error Bytes := file.read file.length 0 device

def write (file : File) (data : Bytes) (pos : Nat) : Action Nat := do
  Action.scatter (file.spans pos data.length) data
  return file.extent pos data.length

theorem totalLength_spans (file : File) (pos count : Nat) :
    Span.totalLength (file.spans pos count) = file.extent pos count := by
  by_cases h : file.extent pos count = 0
  · rw [spans, h, Span.cover_zero]
    rfl
  · apply Span.totalLength_cover
    rw [file.consistent.length_dataSectors]
    simp only [extent, length, sectorsFor, sectorSize] at *
    omega

end File

end SectorFS
