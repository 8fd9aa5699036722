import Mathlib.Data.List.Nodup
import Mathlib.Data.List.Range

/-!
`AssembleIngressesFromAWS` starts one goroutine per cluster load balancer, and each ends
with `ingresses = append(ingresses, albIngress)` on the shared slice, with no lock. The
append is a read of the slice followed by a write of the slice read plus one element.
A schedule is any list of goroutine indices; each entry lets that goroutine take its next
step, and `wg.Wait` returns once every goroutine has written.

Each read and each write takes the slice header (pointer, length and capacity) as one value.
Under a data race Go reads and writes those words apart, and an interleaving of them can
leave, say, a new length over an old array; such schedules are not modelled here. Already
among the modelled ones a result can be lost: two goroutines that both read before either
writes each write a slice without the other's result. A schedule that runs each append
alone returns every result once.
-/

namespace AlbIngress.Ingresses

/-- Where one goroutine is in its append: before the read of the shared slice, holding the
slice it read, or past its write. -/
inductive Phase (α : Type)
  | start
  | loaded (ingresses : List α)
  | done
  deriving DecidableEq, Repr

def Phase.isDone {α : Type} : Phase α → Bool
  | .done => true
  | _ => false

/-- The shared slice `ingresses` and the phase of every goroutine. -/
structure AssembleState (α : Type) where
  ingresses : List α
  phase : Nat → Phase α

section Assemble

variable {α : Type} (albIngress : Nat → α)

/-- The `n` goroutines have not started; no index past them names a goroutine. -/
def initial (n : Nat) : AssembleState α :=
  ⟨[], fun i => if i < n then .start else .done⟩

/-- The goroutine `i` takes its next step. `albIngress i` is what
`NewALBIngressFromAWSLoadBalancer` returned for the `i`-th load balancer. -/
def step (s : AssembleState α) (i : Nat) : AssembleState α :=
  match s.phase i with
  | .start => { s with phase := Function.update s.phase i (.loaded s.ingresses) }
  | .loaded r => ⟨r ++ [albIngress i], Function.update s.phase i .done⟩
  | .done => s

def run (s : AssembleState α) (schedule : List Nat) : AssembleState α :=
  schedule.foldl (step albIngress) s

/-- `AssembleIngressesFromAWS` with `n` load balancers under `schedule`: the slice it
returns, or `none` when `wg.Wait` is still waiting at the end of the schedule. -/
def assembleIngressesFromAWS (n : Nat) (schedule : List Nat) : Option (List α) :=
  let s := run albIngress (initial n) schedule
  if ∀ i < n, (s.phase i).isDone then some s.ingresses else none

@[simp] theorem run_nil (s : AssembleState α) : run albIngress s [] = s := rfl

@[simp] theorem run_append (s : AssembleState α) (l₁ l₂ : List Nat) :
    run albIngress s (l₁ ++ l₂) = run albIngress (run albIngress s l₁) l₂ :=
  List.foldl_append _ _ _ _

@[simp] theorem run_singleton (s : AssembleState α) (i : Nat) :
    run albIngress s [i] = step albIngress s i := rfl

theorem step_start {s : AssembleState α} {i : Nat} (h : s.phase i = .start) :
    step albIngress s i = { s with phase := Function.update s.phase i (.loaded s.ingresses) } := by
  simp [step, h]

theorem step_loaded {s : AssembleState α} {i : Nat} (r : List α) (h : s.phase i = .loaded r) :
    step albIngress s i = ⟨r ++ [albIngress i], Function.update s.phase i .done⟩ := by
  simp [step, h]

/-! ### A lost result -/

/-- Every goroutine reads the shared slice, then every goroutine writes, in index order. -/
def readsThenWrites (n : Nat) : List Nat := List.range n ++ List.range n

theorem run_reads {n k : Nat} (hk : k ≤ n) :
    run albIngress (initial n) (List.range k) =
      ⟨[], fun i => if i < k then .loaded [] else if i < n then .start else .done⟩ := by
  induction k with
  | zero => simp [initial]
  | succ k ih =>
    rw [List.range_succ, run_append, ih (by omega), run_singleton,
      step_start albIngress (by simp; omega)]
    congr 1
    funext i
    by_cases hik : i = k
    · subst hik
      simp
    · simp only [Function.update_noteq hik]
      by_cases hi : i < k <;> simp [hi, show i < k + 1 ↔ i < k by omega]

theorem run_writes {n k : Nat} (hk : k < n) :
    run albIngress ⟨[], fun i => if i < n then .loaded [] else .done⟩ (List.range (k + 1)) =
      ⟨[albIngress k], fun i => if i < k + 1 then .done else if i < n then .loaded [] else .done⟩ := by
  induction k with
  | zero =>
    rw [show List.range (0 + 1) = [0] from rfl, run_singleton,
      step_loaded albIngress [] (by simp; omega)]
    congr 1
    funext i
    by_cases hi : i = 0 <;> simp [hi, Function.update_apply]
  | succ k ih =>
    rw [List.range_succ, run_append, ih (by omega), run_singleton,
      step_loaded albIngress [] (by simp; omega)]
    congr 1
    funext i
    by_cases hik : i = k + 1
    · subst hik
      simp
    · simp only [Function.update_noteq hik]
      by_cases hi : i < k + 1 <;> simp [hi, show i < k + 1 + 1 ↔ i < k + 1 by omega]

/-- With `n > 0` load balancers and every goroutine reading before any writes,
`AssembleIngressesFromAWS` returns one result, the last writer's: the other `n - 1` are
lost. -/
theorem assemble_reads_then_writes_loses_results (n : Nat) (hn : 0 < n) :
    assembleIngressesFromAWS albIngress n (readsThenWrites n) = some [albIngress (n - 1)] := by
  have hreads : run albIngress (initial n) (List.range n) =
      ⟨[], fun i => if i < n then .loaded [] else .done⟩ := by
    rw [run_reads albIngress le_rfl]
    congr 1
    funext i
    by_cases hi : i < n <;> simp [hi]
  have hwrites := run_writes albIngress (show n - 1 < n by omega)
  rw [Nat.sub_add_cancel hn] at hwrites
  simp only [assembleIngressesFromAWS, readsThenWrites, run_append, hreads, hwrites]
  rw [if_pos (fun i hi => by simp [hi, Phase.isDone])]

theorem assemble_reads_then_writes_loses_results_two :
    0 < 2 ∧ assembleIngressesFromAWS id 2 (readsThenWrites 2) = some [1] :=
  ⟨by decide, assemble_reads_then_writes_loses_results id 2 (by decide)⟩

/-! ### Appends that do not overlap -/

/-- Each goroutine of `order` runs its append alone: its read, then its write. -/
def sequential (order : List Nat) : List Nat :=
  order.flatMap fun i => [i, i]

/-- Appends that do not overlap add each goroutine's result once, in their order. -/
theorem run_sequential (s : AssembleState α) (order : List Nat) (hnd : order.Nodup)
    (hstart : ∀ i ∈ order, s.phase i = .start) :
    (run albIngress s (sequential order)).ingresses = s.ingresses ++ order.map albIngress ∧
      ∀ j, (run albIngress s (sequential order)).phase j =
        if j ∈ order then .done else s.phase j := by
  induction order generalizing s with
  | nil => simp [sequential]
  | cons i order ih =>
    obtain ⟨hi, hnd⟩ := List.nodup_cons.mp hnd
    have hread := step_start albIngress (hstart i (.head _))
    have hwrite : step albIngress (step albIngress s i) i =
        ⟨s.ingresses ++ [albIngress i], Function.update s.phase i .done⟩ := by
      rw [hread, step_loaded albIngress s.ingresses (by simp)]
      simp
    have hrun : run albIngress s (sequential (i :: order)) =
        run albIngress ⟨s.ingresses ++ [albIngress i], Function.update s.phase i .done⟩
          (sequential order) := by
      rw [← hwrite]
      rfl
    obtain ⟨hs, hp⟩ := ih ⟨s.ingresses ++ [albIngress i], Function.update s.phase i .done⟩ hnd
      fun j hj => by
      simp [Function.update_noteq (show j ≠ i from fun h => hi (h ▸ hj)), hstart j (.tail _ hj)]
    rw [hrun]
    refine ⟨by simp [hs], fun j => ?_⟩
    rw [hp]
    by_cases hj : j = i
    · subst hj
      simp [hi]
    · simp [hj, Function.update_noteq hj]

/-- When every append runs alone, `AssembleIngressesFromAWS` returns every result once:
the results in the order the goroutines ran. -/
theorem assemble_sequential (n : Nat) (order : List Nat) (horder : order.Perm (List.range n)) :
    assembleIngressesFromAWS albIngress n (sequential order) = some (order.map albIngress) := by
  have hmem : ∀ i, i ∈ order ↔ i < n := fun i => by simp [horder.mem_iff]
  obtain ⟨hs, hp⟩ := run_sequential albIngress (initial n) order (horder.nodup_iff.mpr
    (List.nodup_range n)) fun i hi => by simp [initial, (hmem i).mp hi]
  simp only [assembleIngressesFromAWS, hs]
  rw [if_pos fun i hi => by rw [hp]; simp [(hmem i).mpr hi, Phase.isDone]]
  rfl

theorem assemble_sequential_three :
    [2, 0, 1].Perm (List.range 3) ∧
      assembleIngressesFromAWS id 3 (sequential [2, 0, 1]) = some [2, 0, 1] :=
  ⟨by decide, assemble_sequential id 3 [2, 0, 1] (by decide)⟩

end Assemble

end AlbIngress.Ingresses
