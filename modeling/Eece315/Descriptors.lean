import Mathlib

/-! The open files of a process. A descriptor is a place in a table that leads to an open file,
which several descriptors may share; an open file knows its name and where the next write goes. New
descriptors take the lowest free place, and a call that cannot be served changes nothing. -/
namespace Eece315.Descriptors

variable {N α : Type*}

structure OpenFile (N : Type*) where
  name : N
  offset : ℕ
  deriving DecidableEq

/-- The contents of all files, the files that were opened, and the table of one process. -/
structure Process (N α : Type*) where
  files : N → List α
  opened : List (OpenFile N)
  table : List (Option ℕ)

/-- What is written at a place replaces what is there and leaves what is behind it. -/
def overlay (old : List α) (offset : ℕ) (text : List α) : List α :=
  old.take offset ++ text ++ old.drop (offset + text.length)

lemma overlay_length (old text : List α) : overlay old old.length text = old ++ text := by
  simp [overlay]

lemma overlay_nil (old : List α) (offset : ℕ) : overlay old offset [] = old := by
  simp [overlay]

lemma overlay_overlay {old : List α} {offset : ℕ} (h : offset ≤ old.length) (a b : List α) :
    overlay (overlay old offset a) (offset + a.length) b = overlay old offset (a ++ b) := by
  have hfront : (old.take offset ++ a).length = offset + a.length := by
    rw [List.length_append, List.length_take, Nat.min_eq_left h]
  have hback : (old.take offset ++ a ++ old.drop (offset + a.length)).drop
      (offset + a.length + b.length) = old.drop (offset + (a ++ b).length) := by
    rw [← List.drop_drop, List.drop_left' hfront, List.drop_drop, List.length_append,
      Nat.add_assoc]
  rw [overlay, overlay, overlay, List.take_left' hfront, hback, ← List.append_assoc]

def lowest (table : List (Option ℕ)) : Option ℕ := table.findIdx? Option.isNone

namespace Process

variable (p : Process N α)

def lookup (fd : Option ℕ) : Option ℕ := fd.bind fun i => p.table[i]?.join

def openFile (name : N) : Option ℕ × Process N α :=
  match lowest p.table with
  | none => (none, p)
  | some i => (some i, { p with
      opened := p.opened ++ [⟨name, 0⟩]
      table := p.table.set i (some p.opened.length) })

def dup (fd : Option ℕ) : Option ℕ × Process N α :=
  match p.lookup fd, lowest p.table with
  | some f, some i => (some i, { p with table := p.table.set i (some f) })
  | _, _ => (none, p)

def dup2 (fd : Option ℕ) (i : ℕ) : Process N α :=
  match p.lookup fd with
  | some f => { p with table := p.table.set i (some f) }
  | none => p

def close : Option ℕ → Process N α
  | some i => { p with table := p.table.set i none }
  | none => p

def write [DecidableEq N] (fd : ℕ) (text : List α) : Process N α :=
  match p.lookup (some fd) with
  | none => p
  | some f =>
    match p.opened[f]? with
    | none => p
    | some file => { p with
        files := Function.update p.files file.name
          (overlay (p.files file.name) file.offset text)
        opened := p.opened.set f { file with offset := file.offset + text.length } }

/-- A descriptor is made to lead where another one leads that is closed then. The result is a copy
of what it was. -/
def divert (fd : Option ℕ) (i : ℕ) : Option ℕ × Process N α :=
  let (copy, p) := p.dup (some i)
  (copy, (p.dup2 fd i).close fd)

def restore (copy : Option ℕ) (i : ℕ) : Process N α := (p.dup2 copy i).close copy

/-- The names of the open files, which no call changes. -/
def names : List N := p.opened.map OpenFile.name

end Process

section Table

variable {table : List (Option ℕ)} {i f : ℕ}

lemma getElem?_lowest (h : lowest table = some i) : table[i]? = some none := by
  obtain ⟨hi, hnone, -⟩ := List.findIdx?_eq_some_iff_getElem.mp h
  rw [List.getElem?_eq_getElem hi, Option.isNone_iff_eq_none.mp hnone]

lemma lowest_eq_none : lowest table = none ↔ table.count none = 0 := by
  rw [lowest, List.findIdx?_eq_none_iff, List.count_eq_zero]
  constructor
  · intro h hmem
    simpa using h none hmem
  · intro h o ho
    cases o with
    | none => exact absurd ho h
    | some f => rfl

lemma count_set_lowest (h : lowest table = some i) :
    (table.set i (some f)).count none + 1 = table.count none := by
  obtain ⟨hi, hnone, -⟩ := List.findIdx?_eq_some_iff_getElem.mp h
  have hmem : table[i] = none := Option.isNone_iff_eq_none.mp hnone
  have hpos : 0 < table.count none := by
    rw [List.count_pos_iff, ← hmem]
    exact List.getElem_mem hi
  rw [List.count_set hi, hmem]
  simp only [beq_self_eq_true, if_true, reduceCtorEq, beq_iff_eq, if_false]
  omega

lemma ne_of_getElem? {b d : ℕ} (hb : table[b]? = some none) (hi : table[i]? = some (some d)) :
    b ≠ i := by
  rintro rfl
  simp [hb] at hi

lemma set_back {b d : ℕ} {o : Option ℕ} (hb : table[b]? = some none)
    (hi : table[i]? = some (some d)) :
    ((table.set b o).set i (some d)).set b none = table := by
  apply List.ext_getElem?
  intro m
  have hbi := ne_of_getElem? hb hi
  simp only [List.getElem?_set, List.length_set]
  split_ifs <;> simp_all

lemma set_over {a : ℕ} {o o' : Option ℕ} (ha : table[a]? = some none) (hai : a ≠ i) :
    ((table.set a o).set i o').set a none = table.set i o' := by
  apply List.ext_getElem?
  intro m
  simp only [List.getElem?_set, List.length_set]
  split_ifs <;> simp_all

end Table

section Calls

variable (p : Process N α) (fd : Option ℕ) (i : ℕ)

@[simp] lemma files_dup : (p.dup fd).2.files = p.files := by
  unfold Process.dup
  split <;> rfl

@[simp] lemma opened_dup : (p.dup fd).2.opened = p.opened := by
  unfold Process.dup
  split <;> rfl

@[simp] lemma files_dup2 : (p.dup2 fd i).files = p.files := by
  unfold Process.dup2
  split <;> rfl

@[simp] lemma opened_dup2 : (p.dup2 fd i).opened = p.opened := by
  unfold Process.dup2
  split <;> rfl

@[simp] lemma files_close : (p.close fd).files = p.files := by cases fd <;> rfl

@[simp] lemma opened_close : (p.close fd).opened = p.opened := by cases fd <;> rfl

@[simp] lemma files_divert : (p.divert fd i).2.files = p.files := by simp [Process.divert]

@[simp] lemma opened_divert : (p.divert fd i).2.opened = p.opened := by simp [Process.divert]

@[simp] lemma files_restore : (p.restore fd i).files = p.files := by simp [Process.restore]

@[simp] lemma opened_restore : (p.restore fd i).opened = p.opened := by simp [Process.restore]

@[simp] lemma table_write [DecidableEq N] (fd : ℕ) (text : List α) :
    (p.write fd text).table = p.table := by
  unfold Process.write
  split
  · rfl
  · split <;> rfl

@[simp] lemma names_write [DecidableEq N] (fd : ℕ) (text : List α) :
    (p.write fd text).names = p.names := by
  unfold Process.write
  split
  · rfl
  · next f _ =>
    split
    · rfl
    · next file hfile =>
      obtain ⟨hlt, hfile⟩ := List.getElem?_eq_some_iff.mp hfile
      rw [Process.names, List.map_set, ← hfile, ← List.getElem_map OpenFile.name,
        List.set_getElem_self]
      · rfl
      · simpa using hlt

end Calls

section Divert

variable {p q : Process N α} {i d : ℕ} {name : N}

lemma lookup_of_table {i : ℕ} (h : p.table[i]? = some (some d)) : p.lookup (some i) = some d := by
  rw [Process.lookup, Option.bind_some, h]
  rfl

lemma dup_cases (hd : p.table[i]? = some (some d)) :
    (p.table.count none = 0 ∧ p.dup (some i) = (none, p)) ∨
    ∃ b, p.table[b]? = some none ∧
      p.dup (some i) = (some b, { p with table := p.table.set b (some d) }) := by
  rw [Process.dup, lookup_of_table hd]
  cases hlow : lowest p.table with
  | none => exact .inl ⟨lowest_eq_none.mp hlow, rfl⟩
  | some b => exact .inr ⟨b, getElem?_lowest hlow, rfl⟩

lemma table_restore {b : ℕ} (h : q.table[b]? = some (some d)) :
    (q.restore (some b) i).table = (q.table.set i (some d)).set b none := by
  rw [Process.restore, Process.dup2, lookup_of_table h]
  rfl

lemma table_restore_none (hd : p.table[i]? = some (some d))
    (hq : q.table = (p.divert none i).2.table) :
    (p.divert none i).2.table[i]? = some (some d) ∧
      (q.restore (p.divert none i).1 i).table = p.table := by
  rcases dup_cases hd with ⟨-, hdup⟩ | ⟨b, hb, hdup⟩
  · simp only [Process.divert, hdup] at hq ⊢
    exact ⟨hd, hq⟩
  · simp only [Process.divert, hdup] at hq ⊢
    have hqb : q.table[b]? = some (some d) := by
      obtain ⟨hlt, -⟩ := List.getElem?_eq_some_iff.mp hb
      rw [hq]
      exact List.getElem?_set_self hlt
    constructor
    · have hkept := List.getElem?_set_ne (ne_of_getElem? hb hd) (l := p.table) (a := some d)
      exact hkept.trans hd
    · rw [table_restore hqb, hq]
      exact set_back hb hd

lemma openFile_of_lowest {a : ℕ} (ha : lowest p.table = some a) :
    p.openFile name = (some a, { p with
      opened := p.opened ++ [⟨name, 0⟩]
      table := p.table.set a (some p.opened.length) }) := by
  rw [Process.openFile, ha]

lemma openFile_over {a : ℕ} (hd : p.table[i]? = some (some d)) (ha : lowest p.table = some a) :
    ((p.openFile name).2.dup2 (some a) i).close (some a) = { p with
      opened := p.opened ++ [⟨name, 0⟩]
      table := p.table.set i (some p.opened.length) } := by
  have hnone := getElem?_lowest ha
  obtain ⟨hlt, -⟩ := List.getElem?_eq_some_iff.mp hnone
  have ha' : (p.table.set a (some p.opened.length))[a]? = some (some p.opened.length) :=
    List.getElem?_set_self hlt
  rw [openFile_of_lowest ha, Process.dup2, lookup_of_table ha', Process.close]
  simp only [set_over hnone (ne_of_getElem? hnone hd)]

lemma divert_of_dup {a f : ℕ} {copy : Option ℕ} (hdup : p.dup (some i) = (copy, q))
    (ha : q.table[a]? = some (some f)) : p.divert (some a) i =
      (copy, { q with table := (q.table.set i (some f)).set a none }) := by
  rw [Process.divert, hdup]
  simp only [Process.dup2, lookup_of_table ha, Process.close]

lemma table_restore_some {a : ℕ} (hd : p.table[i]? = some (some d)) (ha : lowest p.table = some a)
    (hq : q.table = ((p.openFile name).2.divert (some a) i).2.table) :
    ((p.openFile name).2.divert (some a) i).2.table[i]? = some (some p.opened.length) ∧
    (q.restore ((p.openFile name).2.divert (some a) i).1 i).table =
      if p.table.count none = 1 then p.table.set i (some p.opened.length) else p.table := by
  have hnone := getElem?_lowest ha
  have hai := ne_of_getElem? hnone hd
  obtain ⟨hlt, -⟩ := List.getElem?_eq_some_iff.mp hnone
  obtain ⟨hlti, -⟩ := List.getElem?_eq_some_iff.mp hd
  have hcount := count_set_lowest (f := p.opened.length) ha
  rw [openFile_of_lowest ha] at hq ⊢
  simp only at hq ⊢
  set p' : Process N α := { p with
    opened := p.opened ++ [⟨name, 0⟩]
    table := p.table.set a (some p.opened.length) } with hp'
  have hd' : p'.table[i]? = some (some d) := by
    rw [hp', List.getElem?_set_ne hai]
    exact hd
  have ha' : p'.table[a]? = some (some p.opened.length) := List.getElem?_set_self hlt
  rcases dup_cases hd' with ⟨hfull, hdup⟩ | ⟨b, hb, hdup⟩
  · have hone : p.table.count none = 1 := by
      rw [← hcount]
      exact congrArg (· + 1) hfull
    have hover : (p'.table.set i (some p.opened.length)).set a none =
        p.table.set i (some p.opened.length) := set_over hnone hai
    rw [divert_of_dup hdup ha', hover] at hq
    rw [divert_of_dup hdup ha', hover, if_pos hone]
    exact ⟨List.getElem?_set_self hlti, hq⟩
  · have hab : a ≠ b := by
      rintro rfl
      simp [ha'] at hb
    have hb' : p.table[b]? = some none := by
      rwa [hp', List.getElem?_set_ne hab] at hb
    have hbi := ne_of_getElem? hb' hd
    obtain ⟨hltb, -⟩ := List.getElem?_eq_some_iff.mp hb'
    have hne : p.table.count none ≠ 1 := by
      have hpos : 0 < p'.table.count none := List.count_pos_iff.mpr (List.mem_of_getElem? hb)
      intro hone
      rw [← hcount] at hone
      exact absurd (Nat.succ.inj hone) hpos.ne'
    have ha'' : (p'.table.set b (some d))[a]? = some (some p.opened.length) := by
      rw [List.getElem?_set_ne hab.symm]
      exact ha'
    have hover : ((p'.table.set b (some d)).set i (some p.opened.length)).set a none =
        (p.table.set b (some d)).set i (some p.opened.length) := by
      rw [hp', List.set_comm _ _ hab]
      exact set_over (by rw [List.getElem?_set_ne hab.symm]; exact hnone) hai
    rw [divert_of_dup hdup ha'', hover] at hq
    rw [divert_of_dup hdup ha'', hover, if_neg hne]
    simp only at hq ⊢
    refine ⟨List.getElem?_set_self (by simpa using hlti), ?_⟩
    have hqb : q.table[b]? = some (some d) := by
      rw [hq, List.getElem?_set_ne hbi.symm]
      exact List.getElem?_set_self hltb
    rw [table_restore hqb, hq, List.set_set]
    exact set_back hb' hd

end Divert

end Eece315.Descriptors
