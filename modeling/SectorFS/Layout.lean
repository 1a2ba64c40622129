namespace SectorFS.Layout

abbrev sectorSize : Nat := 128
abbrev sectorsPerTrack : Nat := 32
abbrev numTracks : Nat := 32
abbrev numSectors : Nat := sectorsPerTrack * numTracks

abbrev freeMapSector : UInt32 := 0

abbrev rootSector : UInt32 := 1

/-- Data sectors one header can name: what its two counts leave of a sector, in words. -/
abbrev numDirect : Nat := (sectorSize - 2 * 4) / 4

abbrev maxFileSize : Nat := numDirect * sectorSize

abbrev maxNameLength : Nat := 9

abbrev directorySlots : Nat := 10

/-- One slot: a flag, a kind, a name with its terminator, a sector number. -/
abbrev slotSize : Nat := 2 + (maxNameLength + 1) + 4

abbrev dot : String := "."
abbrev dotDot : String := ".."
abbrev separator : Char := '/'

abbrev freeMapFileSize : Nat := numSectors / 8
abbrev directoryFileSize : Nat := slotSize * directorySlots

abbrev maxOpenFiles : Nat := 10

abbrev openNameLength : Nat := 31

end SectorFS.Layout
