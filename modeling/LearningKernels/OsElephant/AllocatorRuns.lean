import Mathlib.Data.List.Chain
import Mathlib.Data.List.Nodup
import LearningKernels.OsElephant.BumpAllocator

/-!
# Whole runs of the allocators

A run starts from whatever the loader found in memory, sets up the pools for
some memory size and then takes frames, or heap pages, any number of times. Over
the three counters a run is a list computation; its results are read off there.
-/

namespace OsElephant

open Machine

/-- The kernel after the loader and `mem_pool_init`. -/
def start (before : Kernel) (allMem : Nat) : Except Halt Kernel :=
  ((memPoolInit allMem).run (boot before)).map Prod.snd

/-- Start-up always goes through, takes nothing, and keeps memory outside the
bitmaps as the loader left it. -/
theorem start_run (before : Kernel) (allMem : Nat) :
    ∃ kernel, start before allMem = .ok kernel ∧
      Represents (poolLayout allMem) Bump.empty kernel ∧
      ∀ query, query < 0x9a000 ∨
        (poolLayout allMem).vaddrBase + (poolLayout allMem).kbmLength ≤ query →
        kernel.ram query = setupPage before.ram query := by
  unfold start memPoolInit
  generalize poolLayout allMem = layout
  have tables : BootTables (boot before).ram := by
    simp only [boot]
    exact setupPage_bootTables before.ram
  obtain ⟨kernel, ran, rep, outside⟩ := @PoolLayout.install_run layout (boot before) tables rfl
  refine ⟨kernel, ?_, rep, ?_⟩
  · rw [ran]
    rfl
  · simpa only [boot] using outside

section Frames

/-- Successive calls of `palloc`, with the pool and the result of each. -/
def pallocs : List PoolName → Path Kernel (List (PoolName × Nat))
  | [] => pure []
  | name :: rest => do
      let address ← palloc name
      let later ← pallocs rest
      pure ((name, address) :: later)

/-- A run of `palloc` calls from start-up. -/
def pallocRun (before : Kernel) (allMem : Nat) (calls : List PoolName) :
    Except Halt (List (PoolName × Nat) × Kernel) := do
  let kernel ← start before allMem
  (pallocs calls).run kernel

variable {layout : PoolLayout} {bump : Bump} {kernel : Kernel}

/-- The frames a sequence of calls gets. -/
def Bump.handOut (layout : PoolLayout) : Bump → List PoolName → List (PoolName × Nat)
  | _, [] => []
  | bump, name :: rest =>
      (name, (layout.pool name).phyAddrStart + pgSize * bump.frames name) ::
        (bump.takeFrame name).handOut layout rest

/-- The pools have a frame for every call. -/
def Bump.Room (layout : PoolLayout) (bump : Bump) (calls : List PoolName) : Prop :=
  ∀ name, bump.frames name + calls.count name ≤ layout.capacity name

theorem Bump.room_cons {name : PoolName} {rest : List PoolName} :
    bump.Room layout (name :: rest) ↔ (bump.takeFrame name).Room layout rest := by
  have shifted (other : PoolName) :
      bump.frames other + (name :: rest).count other =
        (bump.takeFrame name).frames other + rest.count other := by
    by_cases same : other = name
    · subst same
      rw [Bump.takeFrame_self, List.count_cons_self]
      omega
    · rw [Bump.takeFrame_of_ne _ same, List.count_cons_of_ne (Ne.symm same)]
  constructor
  · intro room other
    rw [← shifted]
    exact room other
  · intro room other
    rw [shifted]
    exact room other

/-- With a frame for every call, the calls get the next frames of their pools. -/
theorem pallocs_run (rep : Represents layout bump kernel) (calls : List PoolName)
    (room : bump.Room layout calls) :
    ∃ after, (pallocs calls).run kernel = .ok (bump.handOut layout calls, after) ∧
      ∀ name, after.pool name = layout.pool name := by
  induction calls generalizing bump kernel with
  | nil => exact ⟨kernel, rfl, rep.pools⟩
  | cons name rest ih =>
      have free : bump.frames name < layout.capacity name := by
        have bound := room name
        rw [List.count_cons_self] at bound
        omega
      obtain ⟨after, ran, pools⟩ := ih (rep.takeFrame name free) (Bump.room_cons.mp room)
      refine ⟨after, ?_, pools⟩
      rw [pallocs, Path.run_bind_of_ok (palloc_run rep name free), Path.run_bind_of_ok ran]
      rfl

/-- Without a frame for every call, the calls end at a failed assertion. -/
theorem pallocs_exhausted (rep : Represents layout bump kernel) (calls : List PoolName)
    (within : ∀ name, bump.frames name ≤ layout.capacity name)
    (short : ¬ bump.Room layout calls) :
    (pallocs calls).run kernel = .error .assertFailed := by
  induction calls generalizing bump kernel with
  | nil =>
      exact absurd (fun name => by simpa only [List.count_nil, Nat.add_zero] using within name)
        short
  | cons name rest ih =>
      by_cases free : bump.frames name < layout.capacity name
      · have kept : ∀ other, (bump.takeFrame name).frames other ≤ layout.capacity other := by
          intro other
          by_cases same : other = name
          · subst same
            rw [Bump.takeFrame_self]
            omega
          · rw [Bump.takeFrame_of_ne _ same]
            exact within other
        have stopped := ih (rep.takeFrame name free) kept
          fun room => short (Bump.room_cons.mpr room)
        rw [pallocs, Path.run_bind_of_ok (palloc_run rep name free),
          Path.run_bind_of_error stopped]
      · rw [pallocs, Path.run_bind_of_error (palloc_full rep name (by omega))]

theorem Bump.handOut_calls (bump : Bump) (calls : List PoolName) :
    (bump.handOut layout calls).map Prod.fst = calls := by
  induction calls generalizing bump with
  | nil => rfl
  | cons name rest ih => simp only [handOut, List.map_cons, ih]

/-- Every frame handed out is one of its pool, from the counter on. -/
theorem Bump.mem_handOut {bump : Bump} {calls : List PoolName} {entry : PoolName × Nat}
    (member : entry ∈ bump.handOut layout calls) :
    ∃ index, bump.frames entry.1 ≤ index ∧
      index < bump.frames entry.1 + calls.count entry.1 ∧
      entry.2 = (layout.pool entry.1).phyAddrStart + pgSize * index := by
  induction calls generalizing bump with
  | nil => cases member
  | cons name rest ih =>
      rcases List.mem_cons.mp member with rfl | later
      · refine ⟨bump.frames name, le_rfl, ?_, rfl⟩
        simp only [List.count_cons_self]
        omega
      · obtain ⟨index, lower, upper, address⟩ := ih later
        refine ⟨index, ?_, ?_, address⟩
        · by_cases same : entry.1 = name
          · rw [same, takeFrame_self] at lower
            rw [same]
            omega
          · rwa [takeFrame_of_ne _ same] at lower
        · by_cases same : entry.1 = name
          · rw [same, takeFrame_self] at upper
            rw [same, List.count_cons_self]
            omega
          · rwa [takeFrame_of_ne _ same, ← List.count_cons_of_ne (Ne.symm same)] at upper

/-- A pool's bitmap counts whole pages of the pool. -/
theorem PoolLayout.capacity_mul_le (layout : PoolLayout) (name : PoolName) :
    pgSize * layout.capacity name ≤ (layout.pool name).poolSize := by
  cases name with
  | kernelPool =>
      change 4096 * (8 * (layout.kernelFreePages / 8)) ≤ layout.kernelFreePages * 4096
      omega
  | userPool =>
      change 4096 * (8 * (layout.userFreePages / 8)) ≤ layout.userFreePages * 4096
      omega

/-- The user pool begins where the kernel pool ends. -/
theorem PoolLayout.pools_adjacent (layout : PoolLayout) :
    (layout.pool .kernelPool).phyAddrStart + (layout.pool .kernelPool).poolSize =
      (layout.pool .userPool).phyAddrStart := rfl

/-- Both pools begin behind the page tables, on a page boundary. -/
theorem PoolLayout.start_aligned (layout : PoolLayout) (name : PoolName) :
    0x200000 ≤ (layout.pool name).phyAddrStart ∧ (layout.pool name).phyAddrStart % 4096 = 0 := by
  have used := usedMem_eq
  cases name with
  | kernelPool =>
      change 0x200000 ≤ usedMem ∧ usedMem % 4096 = 0
      omega
  | userPool =>
      change 0x200000 ≤ usedMem + layout.kernelFreePages * 4096 ∧
        (usedMem + layout.kernelFreePages * 4096) % 4096 = 0
      omega

theorem poolLayout_end_le {allMem : Nat} (word : allMem < 2 ^ 32) (enough : 0x200000 ≤ allMem)
    (name : PoolName) :
    ((poolLayout allMem).pool name).phyAddrStart + ((poolLayout allMem).pool name).poolSize ≤
      allMem := by
  have used := usedMem_eq
  have pages : (poolLayout allMem).allFreePages * 4096 + 0x200000 ≤ allMem := by
    change (allMem + 2 ^ 32 - usedMem) % 2 ^ 32 / 4096 % 2 ^ 16 * 4096 + 0x200000 ≤ allMem
    omega
  generalize poolLayout allMem = layout at pages ⊢
  cases name with
  | kernelPool =>
      change usedMem + layout.allFreePages / 2 * 4096 ≤ allMem
      omega
  | userPool =>
      change usedMem + layout.allFreePages / 2 * 4096 +
        (layout.allFreePages - layout.allFreePages / 2) * 4096 ≤ allMem
      omega

/-- A frame handed out lies in its pool. -/
theorem Bump.handOut_in_pool {calls : List PoolName} (room : bump.Room layout calls)
    {entry : PoolName × Nat} (member : entry ∈ bump.handOut layout calls) :
    (layout.pool entry.1).phyAddrStart ≤ entry.2 ∧
      entry.2 + 4096 ≤ (layout.pool entry.1).phyAddrStart + (layout.pool entry.1).poolSize ∧
      entry.2 % 4096 = 0 := by
  obtain ⟨index, lower, upper, address⟩ := Bump.mem_handOut member
  have bound := room entry.1
  have sized := layout.capacity_mul_le entry.1
  have aligned := layout.start_aligned entry.1
  unfold pgSize at address sized
  omega

/-- No frame is handed out twice, within a pool or across the pools. -/
theorem Bump.handOut_nodup {calls : List PoolName} (room : bump.Room layout calls) :
    ((bump.handOut layout calls).map Prod.snd).Nodup := by
  induction calls generalizing bump with
  | nil => exact List.nodup_nil
  | cons name rest ih =>
      have roomRest := Bump.room_cons.mp room
      rw [handOut, List.map_cons, List.nodup_cons]
      refine ⟨?_, ih roomRest⟩
      intro repeated
      obtain ⟨entry, member, same⟩ := List.mem_map.mp repeated
      have head := Bump.handOut_in_pool room (List.mem_cons_self)
      have later := Bump.handOut_in_pool roomRest member
      by_cases samePool : entry.1 = name
      · obtain ⟨index, lower, _, address⟩ := Bump.mem_handOut member
        rw [samePool, takeFrame_self] at lower
        rw [samePool] at address
        unfold pgSize at address same
        omega
      · have adjacent := layout.pools_adjacent
        obtain ⟨other, address⟩ := entry
        cases name <;> cases other <;> first | exact absurd rfl samePool | (simp only at *; omega)

/-- **Physical frames are never handed out twice.** From any memory contents and
for any memory size of at least two megabytes, a sequence of `palloc` calls that
does not fail an assertion hands out distinct page frames, each inside its own
pool and inside memory. -/
theorem palloc_never_repeats (before : Kernel) {allMem : Nat} (word : allMem < 2 ^ 32)
    (enough : 0x200000 ≤ allMem) (calls : List PoolName)
    (stays : pallocRun before allMem calls ≠ .error .assertFailed) :
    ∃ handed after, pallocRun before allMem calls = .ok (handed, after) ∧
      handed.map Prod.fst = calls ∧ (handed.map Prod.snd).Nodup ∧
      ∀ entry ∈ handed, entry.2 ≠ 0 ∧ entry.2 % 4096 = 0 ∧
        (after.pool entry.1).phyAddrStart ≤ entry.2 ∧
        entry.2 < (after.pool entry.1).phyAddrStart + (after.pool entry.1).poolSize ∧
        entry.2 + 4096 ≤ allMem := by
  obtain ⟨kernel, started, rep, _⟩ := start_run before allMem
  have runs : pallocRun before allMem calls = (pallocs calls).run kernel := by
    rw [pallocRun, started]
    rfl
  have ends := poolLayout_end_le word enough
  rw [runs] at stays ⊢
  generalize poolLayout allMem = layout at rep ends
  have room : Bump.empty.Room layout calls := by
    by_contra short
    exact stays (pallocs_exhausted rep calls (fun name => Nat.zero_le _) short)
  obtain ⟨after, ran, pools⟩ := pallocs_run rep calls room
  refine ⟨_, after, ran, Bump.handOut_calls _ _, Bump.handOut_nodup room, ?_⟩
  intro entry member
  obtain ⟨lower, upper, aligned⟩ := Bump.handOut_in_pool room member
  have base := layout.start_aligned entry.1
  have below := ends entry.1
  rw [pools entry.1]
  omega

/-- Thirty-two megabytes have room for three frames. -/
theorem palloc_never_repeats_three :
    ∃ handed after,
      pallocRun Kernel.blank 0x2000000 [.kernelPool, .userPool, .kernelPool] =
        .ok (handed, after) ∧
      (handed.map Prod.snd).Nodup := by
  have stays : pallocRun Kernel.blank 0x2000000 [.kernelPool, .userPool, .kernelPool] ≠
      .error .assertFailed := by
    obtain ⟨kernel, started, rep, _⟩ := start_run Kernel.blank 0x2000000
    have room : Bump.empty.Room (poolLayout 0x2000000) [.kernelPool, .userPool, .kernelPool] := by
      intro name
      cases name <;> decide +kernel
    obtain ⟨after, ran, _⟩ := pallocs_run rep _ room
    rw [pallocRun, started]
    intro failed
    cases ran.symm.trans failed
  obtain ⟨handed, after, ran, _, distinct, _⟩ := palloc_never_repeats Kernel.blank
    (by decide) (by decide) [.kernelPool, .userPool, .kernelPool] stays
  exact ⟨handed, after, ran, distinct⟩

end Frames

section Heap

/-- A call of `vaddr_get` in a run: the request, the answer and the kernel around it. -/
structure HeapCall where
  pgCnt : Nat
  vaddr : Nat
  before : Kernel
  after : Kernel

/-- The call was granted. -/
def HeapCall.Granted (call : HeapCall) : Prop := call.vaddr ≠ 0

instance (call : HeapCall) : Decidable call.Granted := inferInstanceAs (Decidable (_ ≠ _))

/-- Successive calls of `vaddr_get` for the kernel. -/
def vaddrGets : List Nat → Path Kernel (List HeapCall)
  | [] => pure []
  | pgCnt :: rest => do
      let before ← get
      let vaddr ← vaddrGet .pfKernel pgCnt
      let after ← get
      let later ← vaddrGets rest
      pure (⟨pgCnt, vaddr, before, after⟩ :: later)

/-- A run of `vaddr_get` calls from start-up. -/
def vaddrRun (before : Kernel) (allMem : Nat) (requests : List Nat) :
    Except Halt (List HeapCall × Kernel) := do
  let kernel ← start before allMem
  (vaddrGets requests).run kernel

/-- The calls bump a pointer that stands at `next`: a granted call gets `next` and
moves it, any other call changes nothing. -/
def Bumps : (next : Nat) → List HeapCall → Prop
  | _, [] => True
  | next, call :: rest =>
      (call.vaddr = next ∧ call.Granted ∧ Bumps (next + pgSize * call.pgCnt) rest) ∨
        (¬ call.Granted ∧ call.after = call.before ∧ Bumps next rest)

variable {layout : PoolLayout} {bump : Bump} {kernel : Kernel}

/-- One call of `vaddr_get` fails the assertion, or bumps the heap counter. -/
theorem vaddrGet_cases (rep : Represents layout bump kernel) {pgCnt : Nat}
    (positive : 1 ≤ pgCnt) :
    (vaddrGet .pfKernel pgCnt).run kernel = .error .assertFailed ∨
      (∃ after, (vaddrGet .pfKernel pgCnt).run kernel =
          .ok (kHeapStart + pgSize * bump.pages, after) ∧
        Represents layout (bump.takePages pgCnt) after) ∨
      (vaddrGet .pfKernel pgCnt).run kernel = .ok (0, kernel) := by
  by_cases room : bump.pages < layout.capacity .kernelPool
  · by_cases fits : HeapFits layout bump kernel pgCnt
    · exact Or.inr (Or.inl ⟨_, vaddrGet_run rep positive room fits, rep.takePages pgCnt fits.1⟩)
    · exact Or.inr (Or.inr (vaddrGet_null rep positive room fits))
  · exact Or.inl (vaddrGet_full rep pgCnt (by omega))

/-- Whatever the first call leaves, the rest of the run goes on from it. -/
theorem vaddrGets_cons_run {pgCnt vaddr : Nat} {after : Kernel} (rest : List Nat)
    (ran : (vaddrGet .pfKernel pgCnt).run kernel = .ok (vaddr, after)) :
    (vaddrGets (pgCnt :: rest)).run kernel =
      ((vaddrGets rest).run after).map fun result =>
        (⟨pgCnt, vaddr, kernel, after⟩ :: result.1, result.2) := by
  rw [vaddrGets, Path.run_bind_of_ok (Path.run_get _), Path.run_bind_of_ok ran,
    Path.run_bind_of_ok (Path.run_get _), StateT.run_bind]
  rfl

/-- Requests that fit inside the bitmap are all granted. -/
theorem vaddrGets_of_room (rep : Represents layout bump kernel) (requests : List Nat)
    (positive : ∀ pgCnt ∈ requests, 1 ≤ pgCnt)
    (room : bump.pages + requests.sum ≤ layout.capacity .kernelPool) :
    ∃ calls after, (vaddrGets requests).run kernel = .ok (calls, after) ∧
      ∀ call ∈ calls, call.Granted := by
  induction requests generalizing bump kernel with
  | nil => exact ⟨[], kernel, rfl, fun call member => absurd member List.not_mem_nil⟩
  | cons pgCnt rest ih =>
      have first := positive pgCnt List.mem_cons_self
      rw [List.sum_cons] at room
      have fits : HeapFits layout bump kernel pgCnt := by
        refine ⟨by omega, fun offset bound => ?_⟩
        rw [rep.vaddrBits _ (by omega), decide_eq_false_iff_not]
        omega
      obtain ⟨calls, after, ran, granted⟩ := ih (rep.takePages pgCnt fits.1)
        (fun other member => positive other (List.mem_cons_of_mem _ member))
        (by simp only [Bump.takePages]; omega)
      rw [vaddrGets_cons_run rest (vaddrGet_run rep first (by omega) fits), ran]
      refine ⟨_, after, rfl, List.forall_mem_cons.mpr ⟨?_, granted⟩⟩
      simp only [HeapCall.Granted, kHeapStart]
      omega

/-- A run of calls fails an assertion, or bumps the heap pointer. -/
theorem vaddrGets_cases (rep : Represents layout bump kernel) (requests : List Nat)
    (positive : ∀ pgCnt ∈ requests, 1 ≤ pgCnt) :
    (vaddrGets requests).run kernel = .error .assertFailed ∨
      ∃ calls after, (vaddrGets requests).run kernel = .ok (calls, after) ∧
        calls.map HeapCall.pgCnt = requests ∧
        Bumps (kHeapStart + pgSize * bump.pages) calls := by
  induction requests generalizing bump kernel with
  | nil => exact Or.inr ⟨[], kernel, rfl, rfl, trivial⟩
  | cons pgCnt rest ih =>
      have positiveRest : ∀ later ∈ rest, 1 ≤ later :=
        fun later member => positive later (List.mem_cons_of_mem _ member)
      rcases vaddrGet_cases rep (positive pgCnt List.mem_cons_self) with
        failed | ⟨after, ran, repAfter⟩ | ran
      · left
        rw [vaddrGets, Path.run_bind_of_ok (Path.run_get _), Path.run_bind_of_error failed]
      · rcases ih repAfter positiveRest with failed | ⟨calls, last, tail, sizes, bumps⟩
        · left
          rw [vaddrGets_cons_run rest ran, failed]
          rfl
        · right
          refine ⟨⟨pgCnt, _, kernel, after⟩ :: calls, last, ?_, ?_, Or.inl ⟨rfl, ?_, ?_⟩⟩
          · rw [vaddrGets_cons_run rest ran, tail]
            rfl
          · rw [List.map_cons, sizes]
          · simp only [HeapCall.Granted, kHeapStart]
            omega
          · simpa only [Bump.takePages, Nat.mul_add, Nat.add_assoc] using bumps
      · rcases ih rep positiveRest with failed | ⟨calls, last, tail, sizes, bumps⟩
        · left
          rw [vaddrGets_cons_run rest ran, failed]
          rfl
        · right
          refine ⟨⟨pgCnt, 0, kernel, kernel⟩ :: calls, last, ?_, ?_, Or.inr ⟨?_, rfl, bumps⟩⟩
          · rw [vaddrGets_cons_run rest ran, tail]
            rfl
          · rw [List.map_cons, sizes]
          · simp only [HeapCall.Granted, ne_eq, not_true_eq_false, not_false_eq_true]

/-- The granted calls of a run, in order. -/
def granted (calls : List HeapCall) : List HeapCall := calls.filter fun call => call.Granted

/-- The pages granted so far. -/
def grantedPages (calls : List HeapCall) : Nat := ((granted calls).map HeapCall.pgCnt).sum

theorem granted_cons_of_granted {call : HeapCall} (yes : call.Granted) (rest : List HeapCall) :
    granted (call :: rest) = call :: granted rest :=
  List.filter_cons_of_pos (by simpa using yes)

theorem granted_cons_of_refused {call : HeapCall} (no : ¬ call.Granted) (rest : List HeapCall) :
    granted (call :: rest) = granted rest :=
  List.filter_cons_of_neg (by simpa using no)

namespace Bumps

/-- A granted call gets the address behind everything granted before it. -/
theorem vaddr_eq {next : Nat} {calls : List HeapCall} (bumps : Bumps next calls) {index : Nat}
    {call : HeapCall} (found : calls[index]? = some call) (yes : call.Granted) :
    call.vaddr = next + pgSize * grantedPages (calls.take index) := by
  induction calls generalizing next index with
  | nil => simp at found
  | cons head rest ih =>
      rcases bumps with ⟨address, headYes, bumps⟩ | ⟨headNo, _, bumps⟩
      · cases index with
        | zero =>
            cases found
            simpa [grantedPages, granted] using address
        | succ index =>
            rw [ih bumps found, List.take_succ_cons, grantedPages, grantedPages,
              granted_cons_of_granted headYes, List.map_cons, List.sum_cons, Nat.mul_add]
            omega
      · cases index with
        | zero =>
            cases found
            exact absurd yes headNo
        | succ index =>
            rw [ih bumps found, List.take_succ_cons, grantedPages, grantedPages,
              granted_cons_of_refused headNo]

/-- A refused call changes nothing. -/
theorem refused {next : Nat} {calls : List HeapCall} (bumps : Bumps next calls) :
    ∀ call ∈ calls, ¬ call.Granted → call.after = call.before := by
  induction calls generalizing next with
  | nil => exact fun call member => absurd member List.not_mem_nil
  | cons head rest ih =>
      intro call member no
      rcases bumps with ⟨_, headYes, bumps⟩ | ⟨_, unchanged, bumps⟩
      · rcases List.mem_cons.mp member with rfl | later
        · exact absurd headYes no
        · exact ih bumps call later no
      · rcases List.mem_cons.mp member with rfl | later
        · exact unchanged
        · exact ih bumps call later no

/-- Granted blocks start at the pointer or behind it. -/
theorem le_vaddr {next : Nat} {calls : List HeapCall} (bumps : Bumps next calls) :
    ∀ call ∈ granted calls, next ≤ call.vaddr := by
  intro call member
  obtain ⟨inside, yes⟩ := List.mem_filter.mp member
  obtain ⟨index, found⟩ := List.mem_iff_getElem?.mp inside
  rw [bumps.vaddr_eq found (by simpa using yes)]
  omega

/-- The first granted block starts at the pointer. -/
theorem head_vaddr {next : Nat} {calls : List HeapCall} (bumps : Bumps next calls) :
    ∀ call ∈ (granted calls).head?, call.vaddr = next := by
  induction calls generalizing next with
  | nil => exact fun call member => by cases member
  | cons head rest ih =>
      rcases bumps with ⟨address, headYes, _⟩ | ⟨headNo, _, bumps⟩
      · rw [granted_cons_of_granted headYes]
        rintro call ⟨⟩
        exact address
      · rw [granted_cons_of_refused headNo]
        exact ih bumps

/-- Granted blocks do not overlap, and each begins where the one before ends. -/
theorem blocks {next : Nat} {calls : List HeapCall} (bumps : Bumps next calls) :
    (granted calls).Pairwise
        (fun first second => first.vaddr + pgSize * first.pgCnt ≤ second.vaddr) ∧
      (granted calls).IsChain
        (fun first second => second.vaddr = first.vaddr + pgSize * first.pgCnt) := by
  induction calls generalizing next with
  | nil => exact ⟨List.Pairwise.nil, List.IsChain.nil⟩
  | cons head rest ih =>
      rcases bumps with ⟨address, headYes, bumps⟩ | ⟨headNo, _, bumps⟩
      · obtain ⟨apart, adjacent⟩ := ih bumps
        rw [granted_cons_of_granted headYes]
        rw [← address] at bumps
        exact ⟨List.pairwise_cons.mpr ⟨bumps.le_vaddr, apart⟩,
          List.isChain_cons.mpr ⟨bumps.head_vaddr, adjacent⟩⟩
      · rw [granted_cons_of_refused headNo]
        exact ih bumps

end Bumps

/-- **The kernel heap is a bump allocator.** From any memory contents and for any
memory size, in a sequence of requests that does not fail an assertion each
granted request gets the address behind the pages granted before it, a refused
one changes nothing, and the granted blocks are disjoint and contiguous. -/
theorem vaddrGet_bump_allocator (before : Kernel) (allMem : Nat) (requests : List Nat)
    (sized : ∀ pgCnt ∈ requests, 1 ≤ pgCnt ∧ pgCnt < 3840)
    (stays : vaddrRun before allMem requests ≠ .error .assertFailed) :
    ∃ calls after, vaddrRun before allMem requests = .ok (calls, after) ∧
      calls.map HeapCall.pgCnt = requests ∧
      (∀ index call, calls[index]? = some call → call.Granted →
        call.vaddr = kHeapStart + 4096 * grantedPages (calls.take index)) ∧
      (∀ call ∈ calls, ¬ call.Granted → call.after = call.before) ∧
      (granted calls).Pairwise
        (fun first second => first.vaddr + 4096 * first.pgCnt ≤ second.vaddr) ∧
      (granted calls).IsChain
        (fun first second => second.vaddr = first.vaddr + 4096 * first.pgCnt) := by
  obtain ⟨kernel, started, rep, _⟩ := start_run before allMem
  have runs : vaddrRun before allMem requests = (vaddrGets requests).run kernel := by
    rw [vaddrRun, started]
    rfl
  rw [runs] at stays ⊢
  rcases vaddrGets_cases rep requests (fun pgCnt member => (sized pgCnt member).1) with
    failed | ⟨calls, after, ran, sizes, bumps⟩
  · exact absurd failed stays
  · have fromStart : Bumps kHeapStart calls := bumps
    exact ⟨calls, after, ran, sizes, fun index call found yes => fromStart.vaddr_eq found yes,
      fromStart.refused, fromStart.blocks⟩

/-- Three pages and then two, out of thirty-two megabytes: both requests are granted. -/
theorem vaddrGet_bump_allocator_five :
    ∃ calls after, vaddrRun Kernel.blank 0x2000000 [3, 2] = .ok (calls, after) ∧
      calls.map HeapCall.pgCnt = [3, 2] ∧
      calls.map HeapCall.vaddr = [0xc0100000, 0xc0103000] := by
  obtain ⟨kernel, started, rep, _⟩ := start_run Kernel.blank 0x2000000
  have room : Bump.empty.pages + [3, 2].sum ≤
      (poolLayout 0x2000000).capacity .kernelPool := by decide +kernel
  obtain ⟨calls, after, run, yes⟩ := vaddrGets_of_room rep _ (by decide) room
  have ran : vaddrRun Kernel.blank 0x2000000 [3, 2] = .ok (calls, after) := by
    rw [vaddrRun, started]
    exact run
  have stays : vaddrRun Kernel.blank 0x2000000 [3, 2] ≠ .error .assertFailed := by
    rw [ran]
    exact nofun
  obtain ⟨same, last, again, sizes, addresses, -⟩ :=
    vaddrGet_bump_allocator Kernel.blank 0x2000000 [3, 2] (by decide) stays
  obtain ⟨rfl, rfl⟩ := Prod.mk.inj (Except.ok.inj (ran.symm.trans again))
  refine ⟨calls, after, ran, sizes, ?_⟩
  obtain ⟨first, rest, rfl, three, sizes⟩ := List.map_eq_cons_iff.mp sizes
  obtain ⟨second, rest, rfl, -, nothing⟩ := List.map_eq_cons_iff.mp sizes
  obtain rfl := List.map_eq_nil_iff.mp nothing
  have start := addresses 0 first rfl (yes first List.mem_cons_self)
  have next := addresses 1 second rfl (yes second (List.mem_cons_of_mem _ List.mem_cons_self))
  have behind : grantedPages [first] = 3 := by
    rw [grantedPages, granted_cons_of_granted (yes first List.mem_cons_self), List.map_cons, three]
    rfl
  rw [List.take_succ_cons, List.take_zero, behind] at next
  rw [List.map_cons, List.map_cons, start, next]
  rfl

end Heap

end OsElephant
