import Eece315.AgedTable

/-! The virtual memory manager (`vmm.c`): the page table, the TLB and the translation of one
address, as the loop of `main` performs it. A step has no result where the source reads through
a null page pointer or reads a byte that `fread` has not written. -/
namespace Eece315.PagerSystem
open AgedTable

def PAGESIZE : ℕ := 256
def PAGECOUNT : ℕ := 128
def TLBSIZE : ℕ := 16

/-- A file of `length` bytes. -/
structure BackingStore where
  length : ℕ
  byte : ℕ → BitVec 8

/-- A buffer of `PAGESIZE` chars, as far as they have been written. -/
abbrev Page := ℕ → Option (BitVec 8)

/-- One index of `pages` and `pageNumbers` in `struct PageTable`; the null pointer is `none`. -/
structure Frame where
  page : Option Page
  pageNumber : ℤ

/-- One index of `pageNumbers` and `frameNumbers` in `struct TLB`. -/
structure Translation where
  pageNumber : ℤ
  frameNumber : ℤ

/-- The entries below `pageCount`; the source never reads another. -/
abbrev PageTable := Table Frame PAGECOUNT

/-- The entries below `tlbCount`. -/
abbrev TLB := Table Translation TLBSIZE

def checkTLB (tlb : TLB) (pageNumber : ℤ) : ℤ :=
  match tlb.contents.find? fun e => e.pageNumber = pageNumber with
  | some e => e.frameNumber
  | none => -1

def updateTLB (tlb : TLB) (pageNumber frameNumber : ℤ) : TLB := tlb.insert ⟨pageNumber, frameNumber⟩

def findPageIndex (pageTable : PageTable) (pageNumber : ℤ) : ℤ :=
  match pageTable.contents.findIdx? fun e => e.pageNumber = pageNumber with
  | some i => i
  | none => -1

/-- The new table and the frame number. -/
def updatePageTable (pageTable : PageTable) (page : Option Page) (pageNumber : ℤ) :
    PageTable × ℤ :=
  (pageTable.insert ⟨page, pageNumber⟩, pageTable.target)

def getPageNumber (address : BitVec 32) : ℤ := (address.sdiv 0x100 &&& 0xFF).toInt

def getPageOffSet (address : BitVec 32) : ℤ := (address &&& 0xFF).toInt

/-- `fseek` succeeds past the end of the file, and `fread` then reads nothing. -/
def readPage (backingStore : BackingStore) (offset : ℤ) : Option Page :=
  if offset < 0 ∨ offset ≥ PAGESIZE then none
  else
    let start := offset.toNat * PAGESIZE
    if backingStore.length ≤ start then none
    else some fun i =>
      if start + i < backingStore.length then some (backingStore.byte (start + i)) else none

/-- A line of output; the physical address is printed as `frameNumber * 0x100 + pageOffset`. -/
structure Line where
  address : BitVec 32
  frameNumber : ℤ
  value : BitVec 8
  deriving DecidableEq

structure State where
  pageTable : PageTable
  tlb : TLB
  pageFaults : ℕ
  TLBHits : ℕ
  out : List Line

/-- The frame number from the TLB, else from the page table, else -1. -/
def lookup (pageNumber : ℤ) (s : State) : ℤ × State :=
  let frameNumber := checkTLB s.tlb pageNumber
  if frameNumber = -1 then (findPageIndex s.pageTable pageNumber, s)
  else (frameNumber, { s with TLBHits := s.TLBHits + 1 })

/-- The page in a frame, after a page fault if there is no frame yet. -/
def fetch (backingStore : BackingStore) (pageNumber frameNumber : ℤ) (s : State) :
    Option Page × ℤ × State :=
  if frameNumber ≠ -1 then
    (s.pageTable.contents[frameNumber.toNat]?.bind Frame.page, frameNumber, s)
  else
    let page := readPage backingStore pageNumber
    let (pageTable, frameNumber) := updatePageTable s.pageTable page pageNumber
    (page, frameNumber, { s with pageTable := pageTable, pageFaults := s.pageFaults + 1 })

/-- The body of the loop of `main`. -/
def translateAddress (backingStore : BackingStore) (s : State) (address : BitVec 32) :
    Option State := do
  let pageNumber := getPageNumber address
  let pageOffset := getPageOffSet address
  let (frameNumber, s) := lookup pageNumber s
  let (page, frameNumber, s) := fetch backingStore pageNumber frameNumber s
  let value ← (← page) pageOffset.toNat
  return { s with
    out := s.out ++ [⟨address, frameNumber, value⟩]
    tlb := updateTLB s.tlb pageNumber frameNumber }

/-- `ClearPageNumbers` and `ClearTLB`. -/
def start : State := ⟨.empty _ _, .empty _ _, 0, 0, []⟩

def run (backingStore : BackingStore) (addresses : List (BitVec 32)) : Option State :=
  addresses.foldlM (translateAddress backingStore) start

end Eece315.PagerSystem
