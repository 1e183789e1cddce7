import Eece315.Numerals
import Eece315.PagerWindows

/-! The addresses: how `ReadAddresses` reads them from its file, and how one is split into a page
number and an offset. The signed division gets the page number of some negative addresses wrong,
and a file that fills the array is taken for one without addresses. -/
namespace Eece315.PagerAddresses
open Words Numerals PagerSystem PagerCoherence

/-- The page number and the offset of an address are its bits 8-15 and its bits 0-7. -/
def ExactSplit (address : BitVec 32) : Prop :=
  (0 ≤ getPageNumber address ∧ getPageNumber address ≤ 255) ∧
    (0 ≤ getPageOffSet address ∧ getPageOffSet address ≤ 255) ∧
    getPageNumber address * 256 + getPageOffSet address = address.toInt % 65536

section Split

variable (address : BitVec 32)

lemma toNat_emod_pagesize : (address.toNat : ℤ) % PAGESIZE = address.toInt % PAGESIZE := by
  rw [BitVec.toInt_eq_toNat_cond]
  simp only [PAGESIZE]
  split_ifs
  · rfl
  · push_cast
    omega

lemma getPageOffSet_eq_emod : getPageOffSet address = address.toInt % PAGESIZE := by
  rw [getPageOffSet_eq, ← toNat_emod_pagesize]
  exact Int.natCast_emod _ _

lemma getPageNumber_eq_emod :
    getPageNumber address = address.toInt.tdiv PAGESIZE % PAGESIZE := by
  have hand : (address.sdiv 0x100 &&& 0xFF).toNat = (address.sdiv 0x100).toNat % PAGESIZE := by
    rw [BitVec.toNat_and]
    exact Nat.and_two_pow_sub_one_eq_mod _ 8
  have hlt : (address.sdiv 0x100).toNat % PAGESIZE < 256 := Nat.mod_lt _ (by decide)
  have hdiv : (address.sdiv 0x100).toInt = (address.toInt.tdiv PAGESIZE).bmod (2 ^ 32) :=
    BitVec.toInt_sdiv address 0x100
  have hdvd : (PAGESIZE : ℤ) ∣ (2 ^ 32 : ℕ) := by decide
  rw [getPageNumber, BitVec.toInt_eq_toNat_of_lt (by omega), hand, Int.natCast_emod,
    toNat_emod_pagesize, hdiv, ← Int.emod_emod_of_dvd _ hdvd, Int.bmod_emod,
    Int.emod_emod_of_dvd _ hdvd]

/-- The division rounds toward zero, so it is a shift unless the address is negative and its
offset is not zero. -/
lemma tdiv_pagesize (a : ℤ) :
    a.tdiv PAGESIZE = a / PAGESIZE + if 0 ≤ a ∨ a % PAGESIZE = 0 then 0 else 1 := by
  have hdvd : (PAGESIZE : ℤ) ∣ a ↔ a % PAGESIZE = 0 := Int.dvd_iff_emod_eq_zero
  simp only [Int.tdiv_eq_ediv, hdvd]
  rfl

theorem exactSplit_iff :
    ExactSplit address ↔ 0 ≤ address.toInt ∨ address.toInt % PAGESIZE = 0 := by
  have hpage := getPageNumber_eq_emod address
  have hoff := getPageOffSet_eq_emod address
  have hrange := getPageNumber_range address
  rw [tdiv_pagesize] at hpage
  simp only [ExactSplit]
  simp only [PAGESIZE] at *
  split_ifs at hpage with h
  · omega
  · simp only [h, iff_false]
    omega

/-- The page number of -1 comes out as 0. -/
theorem exactSplit_neg_one_fails : ¬ ExactSplit (BitVec.ofInt 32 (-1)) := by
  intro h
  have hsum := h.2.2
  revert hsum
  decide

end Split

def MAX_ADDRESSES : ℕ := 2000

/-- The array that `ReadAddresses` returns, as far as it has been written, and `*addressCount`. -/
structure AddressList where
  addresses : List (BitVec 32)
  addressCount : ℕ

/-- The loop of `ReadAddresses` at index `i`, with `room` passes left; behind the loop it returns
the null pointer. -/
def readLoop : ℕ → ℕ → List (BitVec 32) → List Char → Option AddressList
  | 0, _, _, _ => none
  | room + 1, i, addresses, text =>
    match scan text with
    | some (address, rest) => readLoop room (i + 1) (addresses ++ [address]) rest
    | none => some ⟨addresses, i⟩

def readAddresses (text : List Char) : Option AddressList := readLoop MAX_ADDRESSES 0 [] text

/-- `main` without threads: a message and the end of the program if there is no list of addresses,
else its loop over the entries below `addressCount`. -/
def main (backingStore : BackingStore) (text : List Char) : Option State :=
  match readAddresses text with
  | none => some start
  | some list => run backingStore (list.addresses.take list.addressCount)

/-- The text consists of decimal integers, with white space between them, of these values. -/
def Integers (text : List Char) (values : List (BitVec 32)) : Prop :=
  List.Forall₂ (fun w value => Numeral w value.toInt) (words isSpace text) values

/-- All the integers of the file are in the array and are counted, the loop is given each of
them, and on a complete backing store it translates them all. -/
structure LosesNothing (text : List Char) (values : List (BitVec 32)) : Prop where
  read : ∃ list, readAddresses text = some list ∧ list.addressCount = values.length ∧
    list.addresses.take values.length = values
  handed : ∀ backingStore, main backingStore text = run backingStore values
  translated : ∀ backingStore, backingStore.length = PAGESIZE * PAGESIZE →
    ∃ s, main backingStore text = some s ∧ s.out.map Line.address = values

section Reading

variable {text : List Char} {values : List (BitVec 32)}

lemma readLoop_eq (h : Integers text values) (room i : ℕ) (addresses : List (BitVec 32)) :
    readLoop room i addresses text =
      if values.length < room then some ⟨addresses ++ values, i + values.length⟩ else none := by
  induction values generalizing text room i addresses with
  | nil =>
    have hnone := scan_of_words_eq_nil (List.forall₂_nil_right_iff.mp h)
    cases room with
    | zero => rfl
    | succ room => simp [readLoop, hnone]
  | cons value values ih =>
    obtain ⟨w, ws, hw, hws, hwords⟩ := List.forall₂_cons_right_iff.mp h
    obtain ⟨rest, hscan, hrest⟩ := scan_of_words hwords hw
    rw [toInt32_toInt] at hscan
    have hintegers : Integers rest values := by rwa [Integers, hrest]
    cases room with
    | zero => rfl
    | succ room =>
      simp only [readLoop, hscan, ih hintegers, List.length_cons, Nat.add_lt_add_iff_right,
        List.append_assoc, List.singleton_append]
      rw [Nat.add_right_comm i 1, Nat.add_assoc i]

lemma readAddresses_eq (h : Integers text values) :
    readAddresses text =
      if values.length < MAX_ADDRESSES then some ⟨values, values.length⟩ else none := by
  rw [readAddresses, readLoop_eq h, List.nil_append, Nat.zero_add]

/-- Nothing is lost of a list of integers unless it fills the array. -/
theorem losesNothing_iff (h : Integers text values) :
    LosesNothing text values ↔ values.length < MAX_ADDRESSES := by
  have hread := readAddresses_eq h
  constructor
  · intro hloses
    obtain ⟨list, hlist, -⟩ := hloses.read
    by_contra hlt
    rw [hread, if_neg hlt] at hlist
    cases hlist
  · intro hlt
    rw [if_pos hlt] at hread
    have hmain (backingStore) : main backingStore text = run backingStore values := by
      simp only [main, hread, List.take_length]
    constructor
    · exact ⟨_, hread, rfl, List.take_length⟩
    · exact hmain
    · intro backingStore hlen
      obtain ⟨s, hs, -⟩ := coherent_run hlen values
      exact ⟨s, (hmain backingStore).trans hs, (PagerWindows.out_run hs).1⟩

lemma numeral_digit {c : Char} {value : BitVec 32} (hc : c.isDigit = true)
    (hvalue : (Nat.ofDigitChars 10 [c] 0 : ℤ) = value.toInt) : Numeral [c] value.toInt := by
  rw [← hvalue]
  exact .unsigned (List.cons_ne_nil c []) (by simpa using hc)

theorem losesNothing_demo : LosesNothing ['7', ' ', '4', '\n'] [7, 4] := by
  have hints : Integers ['7', ' ', '4', '\n'] [7, 4] := by
    have hwords : words isSpace ['7', ' ', '4', '\n'] = [['7'], ['4']] := by decide
    rw [Integers, hwords]
    exact .cons (numeral_digit (by decide) (by decide))
      (.cons (numeral_digit (by decide) (by decide)) .nil)
  exact (losesNothing_iff hints).mpr (by decide)

lemma integers_replicate (n : ℕ) :
    Integers (List.replicate n ['0', '\n']).flatten (List.replicate n 0) := by
  induction n with
  | zero => exact .nil
  | succ n ih =>
    have hzero : IsWord isSpace ['0'] := ⟨List.cons_ne_nil _ _, by simp [isSpace]⟩
    have hwords : words isSpace ('0' :: '\n' :: (List.replicate n ['0', '\n']).flatten) = _ :=
      words_append_word hzero _ (by decide : isSpace '\n' = true)
    rw [Integers, List.replicate_succ, List.flatten_cons, List.replicate_succ, List.cons_append,
      List.cons_append, List.nil_append, hwords]
    exact .cons (numeral_digit (by decide) (by decide)) ih

/-- A file of `MAX_ADDRESSES` integers, each of them 0. -/
theorem losesNothing_full_fails :
    ¬ ∀ text values, Integers text values → values.length ≤ MAX_ADDRESSES →
      LosesNothing text values := by
  intro h
  have hints := integers_replicate MAX_ADDRESSES
  obtain ⟨list, hlist, -⟩ := (h _ _ hints List.length_replicate.le).read
  rw [readAddresses_eq hints, List.length_replicate, if_neg (lt_irrefl _)] at hlist
  cases hlist

end Reading

end Eece315.PagerAddresses
