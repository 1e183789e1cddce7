import Eece315.SegmentTable

/-! Processes, host tables and the first-fit allocator of the dispatcher (`pcb.h`,
`resources.c`). A host cell holds 0 or the pid of the process it is given to; a PCB remembers
each grant as a start index and a length. -/
namespace Eece315.DispatcherResources
open SegmentTable

/-- The kinds of resource, each with its own host table. -/
inductive Resource
  | printers
  | scanners
  | modems
  | disks
  | memSpace
  deriving DecidableEq, Repr

/-- The three fields `PCBIO` has for each kind (`printersNeeded`, `printersHave`,
`printerStartID` and so on). -/
structure Grant where
  needed : ℤ
  held : ℤ
  startID : ℤ
  deriving DecidableEq, Repr

inductive ProcessState
  | started
  | running
  | suspended
  | terminated
  deriving DecidableEq, Repr

structure PCB where
  pid : ℤ
  priority : ℤ
  arrivalTime : ℤ
  remainingTime : ℤ
  timeSpliceLeft : ℤ
  state : ProcessState
  io : Resource → Grant

def MAX_PRINTERS : ℕ := 2
def MAX_SCANNERS : ℕ := 1
def MAX_MODEMS : ℕ := 1
def MAX_DISKS : ℕ := 2
def MAX_MEMSPACE : ℕ := 1024
def MAX_RTMEMSPACE : ℕ := 64

/-- The tables `printersAlloc`, `scannersAlloc`, `modemsAlloc`, `disksAlloc` and `memSpace`. The
table sizes the host also stores are set once, to the constants above. -/
structure Host where
  alloc : Resource → List ℤ

def Host.set (host : Host) (k : Resource) (cells : List ℤ) : Host :=
  ⟨Function.update host.alloc k cells⟩

/-- The loop of `checkResourcesFreeFirstFit` from cell `i` on, with its run start and run
length; `none` is its early `return -1`. -/
def scan (numResourcesReq pid : ℤ) : List ℤ → ℤ → ℤ → ℤ → Option (ℤ × ℤ)
  | [], _, cursor, count => some (cursor, count)
  | cell :: cells, i, cursor, count =>
    if cell = 0 then
      let cursor := if cursor = -1 then i else cursor
      let count := count + 1
      if count = numResourcesReq then some (cursor, count)
      else scan numResourcesReq pid cells (i + 1) cursor count
    else if cell = pid then none
    else scan numResourcesReq pid cells (i + 1) (-1) 0

def checkResourcesFreeFirstFit (numResourcesReq pid : ℤ) (hostResources : List ℤ) : ℤ :=
  match scan numResourcesReq pid hostResources 0 (-1) 0 with
  | none => -1
  | some (cursor, count) => if count = numResourcesReq then cursor else -1

/-- The body that the five allocators share: `count` cells of table `k` are looked at, from
cell `first` on. -/
def allocateKind (k : Resource) (first count : ℕ) (process : PCB) (host : Host) :
    Bool × PCB × Host :=
  let needed := (process.io k).needed
  if needed = 0 then (true, process, host)
  else
    let startCursor := checkResourcesFreeFirstFit needed process.pid
      (((host.alloc k).drop first).take count)
    if startCursor ≠ -1 then
      let start := startCursor + first
      (true, { process with io := Function.update process.io k ⟨needed, needed, start⟩ },
        host.set k (fill (host.alloc k) start (start + needed) process.pid))
    else (false, process, host)

def allocatePrinters := allocateKind .printers 0 MAX_PRINTERS
def allocateScanners := allocateKind .scanners 0 MAX_SCANNERS
def allocateModems := allocateKind .modems 0 MAX_MODEMS
def allocateDisks := allocateKind .disks 0 MAX_DISKS
def allocateRealTimeMemory := allocateKind .memSpace 0 MAX_RTMEMSPACE
def allocateMemory := allocateKind .memSpace MAX_RTMEMSPACE (MAX_MEMSPACE - MAX_RTMEMSPACE)

/-- One of the five blocks of `freeHostResources`. -/
def freeKind (k : Resource) (process : PCB) (host : Host) : Host :=
  let grant := process.io k
  if grant.startID ≠ -1 then
    host.set k (fill (host.alloc k) grant.startID (grant.startID + grant.held) 0)
  else host

def freeHostResources (process : PCB) (host : Host) : Host :=
  let host := freeKind .printers process host
  let host := freeKind .scanners process host
  let host := freeKind .modems process host
  let host := freeKind .disks process host
  freeKind .memSpace process host

def allocateResources (process : PCB) (host : Host) : ℤ × PCB × Host :=
  let (printers, process, host) := allocatePrinters process host
  let (scanners, process, host) := allocateScanners process host
  let (modems, process, host) := allocateModems process host
  let (disks, process, host) := allocateDisks process host
  let realTime : Bool := process.priority = 0
  let (memory, process, host) :=
    if realTime then allocateRealTimeMemory process host else allocateMemory process host
  if printers && scanners && modems && disks && memory then
    (if realTime then 2 else 1, process, host)
  else (0, process, freeHostResources process host)

/-- The part of table `k` an allocator looks at: first cell and number of cells. -/
def region (realTime : Bool) : Resource → ℕ × ℕ
  | .printers => (0, MAX_PRINTERS)
  | .scanners => (0, MAX_SCANNERS)
  | .modems => (0, MAX_MODEMS)
  | .disks => (0, MAX_DISKS)
  | .memSpace =>
    if realTime then (0, MAX_RTMEMSPACE) else (MAX_RTMEMSPACE, MAX_MEMSPACE - MAX_RTMEMSPACE)

def cursor (process : PCB) (host : Host) (k : Resource) : ℤ :=
  checkResourcesFreeFirstFit (process.io k).needed process.pid
    (((host.alloc k).drop (region (process.priority = 0) k).1).take
      (region (process.priority = 0) k).2)

/-- Nothing of kind `k` is asked for, or first fit finds room for it. -/
def Fits (process : PCB) (host : Host) (k : Resource) : Prop :=
  (process.io k).needed = 0 ∨ cursor process host k ≠ -1

instance (process : PCB) (host : Host) (k : Resource) : Decidable (Fits process host k) :=
  inferInstanceAs (Decidable (_ ∨ _))

instance (process : PCB) (host : Host) : Decidable (∀ k, Fits process host k) :=
  decidable_of_iff (Fits process host .printers ∧ Fits process host .scanners ∧
      Fits process host .modems ∧ Fits process host .disks ∧ Fits process host .memSpace)
    ⟨fun ⟨hp, hs, hm, hd, hmem⟩ k => by cases k <;> assumption,
      fun h => ⟨h _, h _, h _, h _, h _⟩⟩

/-- The grant of kind `k` after an attempt: renewed where first fit found room. -/
def attemptGrant (process : PCB) (host : Host) (k : Resource) : Grant :=
  let needed := (process.io k).needed
  if needed ≠ 0 ∧ cursor process host k ≠ -1 then
    ⟨needed, needed, cursor process host k + (region (process.priority = 0) k).1⟩
  else process.io k

/-- Table `k` before a failed attempt is rolled back. -/
def attemptCells (process : PCB) (host : Host) (k : Resource) : List ℤ :=
  let grant := attemptGrant process host k
  if (process.io k).needed ≠ 0 ∧ cursor process host k ≠ -1 then
    fill (host.alloc k) grant.startID (grant.startID + grant.held) process.pid
  else host.alloc k

/-- The cells that `freeHostResources` clears in table `k`. -/
def freedCells (process : PCB) (host : Host) (k : Resource) : List ℤ :=
  let grant := process.io k
  if grant.startID ≠ -1 then
    fill (host.alloc k) grant.startID (grant.startID + grant.held) 0
  else host.alloc k

def attempted (process : PCB) (host : Host) : PCB :=
  { process with io := attemptGrant process host }

@[ext] lemma Host.ext {a b : Host} (h : ∀ k, a.alloc k = b.alloc k) : a = b := by
  cases a
  cases b
  exact congrArg Host.mk (funext h)

@[simp] lemma Host.set_self (host : Host) (k : Resource) (cells : List ℤ) :
    (host.set k cells).alloc k = cells := by
  simp [Host.set]

lemma Host.set_of_ne (host : Host) {j k : Resource} (cells : List ℤ) (h : j ≠ k) :
    (host.set k cells).alloc j = host.alloc j := by
  simp [Host.set, Function.update_of_ne h]

lemma freeKind_alloc (process : PCB) (host : Host) (j k : Resource) :
    (freeKind k process host).alloc j =
      if j = k then freedCells process host k else host.alloc j := by
  by_cases hj : j = k
  · subst hj
    rw [if_pos rfl, freeKind, freedCells]
    split <;> simp
  · rw [if_neg hj, freeKind]
    split
    · exact host.set_of_ne _ hj
    · rfl

theorem freeHostResources_alloc (process : PCB) (host : Host) (k : Resource) :
    (freeHostResources process host).alloc k = freedCells process host k := by
  cases k <;> simp [freeHostResources, freeKind_alloc, freedCells]

/-- An allocation under way: the kinds in `done` have had their attempt. -/
def stage (process : PCB) (host : Host) (done : List Resource) : PCB × Host :=
  ({ process with
      io := fun k => if k ∈ done then attemptGrant process host k else process.io k },
    ⟨fun k => if k ∈ done then attemptCells process host k else host.alloc k⟩)

lemma stage_nil (process : PCB) (host : Host) : stage process host [] = (process, host) := by
  simp [stage]

lemma allocateKind_stage (process : PCB) (host : Host) {k : Resource} (done : List Resource)
    (hk : k ∉ done) :
    allocateKind k (region (process.priority = 0) k).1 (region (process.priority = 0) k).2
        (stage process host done).1 (stage process host done).2 =
      (decide (Fits process host k), (stage process host (k :: done)).1,
        (stage process host (k :: done)).2) := by
  have hkind : (stage process host done).1.io k = process.io k := by simp [stage, hk]
  have halloc : (stage process host done).2.alloc k = host.alloc k := by simp [stage, hk]
  have hsame (h : ¬ ((process.io k).needed ≠ 0 ∧ cursor process host k ≠ -1)) :
      stage process host (k :: done) = stage process host done := by
    have hg : attemptGrant process host k = process.io k := if_neg h
    have hc : attemptCells process host k = host.alloc k := if_neg h
    refine Prod.ext ?_ (Host.ext fun j => ?_)
    · simp only [stage, List.mem_cons, PCB.mk.injEq, true_and]
      funext j
      by_cases hj : j = k <;> simp [hj, hk, hg]
    · by_cases hj : j = k <;> simp [stage, hj, hk, hc]
  have hset (g : Grant) (c : List ℤ) (hg : attemptGrant process host k = g)
      (hc : attemptCells process host k = c) :
      stage process host (k :: done) =
        ({ (stage process host done).1 with
            io := Function.update (stage process host done).1.io k g },
          (stage process host done).2.set k c) := by
    refine Prod.ext ?_ (Host.ext fun j => ?_)
    · simp only [stage, List.mem_cons, PCB.mk.injEq, true_and]
      funext j
      by_cases hj : j = k <;> simp [hj, hg]
    · by_cases hj : j = k
      · subst hj
        simp [stage, hc]
      · simp [Host.set_of_ne _ _ hj, stage, hj]
  by_cases hn : (process.io k).needed = 0
  · rw [hsame (by simp [hn])]
    simp [allocateKind, hkind, hn, Fits]
  · have hcur : checkResourcesFreeFirstFit (process.io k).needed process.pid
        (((host.alloc k).drop (region (process.priority = 0) k).1).take
          (region (process.priority = 0) k).2) = cursor process host k := rfl
    have hpid : (stage process host done).1.pid = process.pid := rfl
    by_cases hc : cursor process host k = -1
    · rw [hsame (by simp [hc])]
      simp [allocateKind, hkind, halloc, hpid, hcur, hn, hc, Fits]
    · have hif : (process.io k).needed ≠ 0 ∧ cursor process host k ≠ -1 := ⟨hn, hc⟩
      have hg : attemptGrant process host k = ⟨(process.io k).needed, (process.io k).needed,
          cursor process host k + (region (process.priority = 0) k).1⟩ := if_pos hif
      rw [hset _ _ hg (by rw [attemptCells, if_pos hif, hg])]
      simp [allocateKind, hkind, halloc, hpid, hcur, hn, hc, Fits]

lemma memory_stage (process : PCB) (host : Host) (done : List Resource)
    (hk : Resource.memSpace ∉ done) :
    (if process.priority = 0 then
        allocateRealTimeMemory (stage process host done).1 (stage process host done).2
      else allocateMemory (stage process host done).1 (stage process host done).2) =
      (decide (Fits process host .memSpace), (stage process host (.memSpace :: done)).1,
        (stage process host (.memSpace :: done)).2) := by
  have h := allocateKind_stage process host done hk
  by_cases hp : process.priority = 0
  · simpa [hp, region, allocateRealTimeMemory] using h
  · simpa [hp, region, allocateMemory] using h

/-- An allocation succeeds when every kind fits the tables as they were before the call; a
failed one clears what the process's grants now name, renewed or left by an earlier attempt. -/
theorem allocateResources_eq (process : PCB) (host : Host) :
    allocateResources process host =
      if ∀ k, Fits process host k then
        (if process.priority = 0 then 2 else 1, attempted process host,
          ⟨attemptCells process host⟩)
      else (0, attempted process host,
        freeHostResources (attempted process host) ⟨attemptCells process host⟩) := by
  have hprinters : allocatePrinters process host =
      (decide (Fits process host .printers), stage process host [.printers]) := by
    have h := allocateKind_stage process host (k := .printers) [] (by simp)
    rwa [stage_nil] at h
  have hscanners := allocateKind_stage process host (k := .scanners) [.printers] (by simp)
  have hmodems := allocateKind_stage process host (k := .modems) [.scanners, .printers]
    (by simp)
  have hdisks := allocateKind_stage process host (k := .disks)
    [.modems, .scanners, .printers] (by simp)
  have hall (k : Resource) : k ∈ [Resource.memSpace, .disks, .modems, .scanners, .printers] := by
    cases k <;> simp
  have hlast : stage process host [.memSpace, .disks, .modems, .scanners, .printers] =
      (attempted process host, ⟨attemptCells process host⟩) := by
    simp only [stage, attempted, hall, if_true]
  have hboth := memory_stage process host [.disks, .modems, .scanners, .printers]
    (by simp)
  have hscanners' : allocateScanners (stage process host [.printers]).1
      (stage process host [.printers]).2 = _ := hscanners
  have hmodems' : allocateModems (stage process host [.scanners, .printers]).1
      (stage process host [.scanners, .printers]).2 = _ := hmodems
  have hdisks' : allocateDisks (stage process host [.modems, .scanners, .printers]).1
      (stage process host [.modems, .scanners, .printers]).2 = _ := hdisks
  have hprio (done : List Resource) : (stage process host done).1.priority = process.priority :=
    rfl
  have hfits : (∀ k, Fits process host k) ↔ (decide (Fits process host .printers) &&
      decide (Fits process host .scanners) && decide (Fits process host .modems) &&
      decide (Fits process host .disks) && decide (Fits process host .memSpace)) = true := by
    simp only [Bool.and_eq_true, decide_eq_true_eq]
    refine ⟨fun h => ⟨⟨⟨⟨h _, h _⟩, h _⟩, h _⟩, h _⟩, ?_⟩
    rintro ⟨⟨⟨⟨hp, hs⟩, hm⟩, hd⟩, hmem⟩ k
    cases k <;> assumption
  simp only [allocateResources, hprinters, hscanners', hmodems', hdisks', hprio, hboth, hlast,
    hfits, decide_eq_true_eq]

lemma allocateResources_process (process : PCB) (host : Host) :
    (allocateResources process host).2.1 = attempted process host := by
  rw [allocateResources_eq]
  split_ifs <;> rfl

lemma allocateResources_ne_zero (process : PCB) (host : Host) :
    (allocateResources process host).1 ≠ 0 ↔ ∀ k, Fits process host k := by
  rw [allocateResources_eq]
  split_ifs with h hp
  · simpa using h
  · simpa using h
  · simpa using h

end Eece315.DispatcherResources
