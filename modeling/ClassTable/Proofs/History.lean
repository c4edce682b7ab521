import ClassTable.Proofs.Numbering
import ClassTable.Proofs.Placement

/-!
Runs of the operations on a pool. A failed call has no effect: it changes no class, reports nothing,
and the calls after it give what they would give without it.
-/

namespace ClassTable

inductive Call where
  | intern (entry : Entry)
  | assignIndices
  | assignOffsets (start : UInt32) (sizeOf : Entry → UInt32)

inductive Answer where
  | interned (entry : Entry)
  | order (types : List Descriptor)
  | stop (offset : UInt32)

def Pass.map {α β : Type} (view : α → β) (pass : Pass α) : Pass β :=
  ⟨pass.result.map view, pass.pool, pass.events⟩

/-- A pass that fails leaves the pool as it was and reports nothing. -/
def Pass.Atomic {α : Type} (pass : Pass α) (pool : Pool) : Prop :=
  ∀ failure, pass.result = .error failure → pass.pool = pool ∧ pass.events = []

def Call.perform (pool : Pool) : Call → Pass Answer
  | .intern entry => (pool.intern entry).map .interned
  | .assignIndices => pool.assignIndices.map .order
  | .assignOffsets start sizeOf => (pool.assignOffsets start sizeOf).map .stop

structure Session where
  answers : List (Except PoolError Answer)
  pool : Pool
  events : List LogEvent

theorem Pass.atomic_of_error {α : Type} {pool : Pool} (failure : PoolError) :
    (⟨.error failure, pool, []⟩ : Pass α).Atomic pool :=
  fun _ _ => ⟨rfl, rfl⟩

theorem Pass.atomic_of_ok {α : Type} {pass : Pass α} {value : α} {pool : Pool}
    (success : pass.result = .ok value) : pass.Atomic pool := by
  intro failure failed
  rw [success] at failed
  cases failed

theorem Pass.Atomic.map {α β : Type} {pass : Pass α} {pool : Pool} (atomic : pass.Atomic pool)
    (view : α → β) : (pass.map view).Atomic pool := by
  intro failure failed
  cases outcome : pass.result with
  | error reason => exact atomic reason outcome
  | ok value =>
      rw [Pass.map, outcome] at failed
      cases failed

namespace Pool

def run (pool : Pool) : List Call → Session
  | [] => ⟨[], pool, []⟩
  | call :: rest =>
    let pass := call.perform pool
    let later := run pass.pool rest
    ⟨pass.result :: later.answers, later.pool, pass.events ++ later.events⟩

theorem run_keeps {kept : Pool → Prop} {allowed : Call → Prop}
    (step : ∀ pool call, allowed call → kept pool → kept (call.perform pool).pool)
    {calls : List Call} (each : ∀ call ∈ calls, allowed call) {pool : Pool} (start : kept pool) :
    kept (pool.run calls).pool := by
  induction calls generalizing pool with
  | nil => exact start
  | cons call rest ih =>
      obtain ⟨first, others⟩ := List.forall_mem_cons.1 each
      exact ih others (step pool call first start)

theorem intern_atomic (pool : Pool) (entry : Entry) : (pool.intern entry).Atomic pool := by
  rw [intern]
  split
  · exact Pass.atomic_of_error _
  · exact Pass.atomic_of_ok rfl

theorem assignIndices_atomic (pool : Pool) : pool.assignIndices.Atomic pool := by
  rcases pool.assignIndices_cases with ⟨failure, failed⟩ | ⟨order, plan, _, _, success, _⟩
  · rw [failed]
    exact Pass.atomic_of_error failure
  · exact Pass.atomic_of_ok success

theorem assignOffsets_atomic (pool : Pool) (start : UInt32) (sizeOf : Entry → UInt32) :
    (pool.assignOffsets start sizeOf).Atomic pool := by
  rcases pool.assignOffsets_cases start sizeOf with
    ⟨failure, failed⟩ | ⟨entries, plan, stop, _, _, success, _⟩
  · rw [failed]
    exact Pass.atomic_of_error failure
  · exact Pass.atomic_of_ok success

theorem perform_atomic (pool : Pool) (call : Call) : (call.perform pool).Atomic pool := by
  cases call with
  | intern entry => exact (pool.intern_atomic entry).map _
  | assignIndices => exact pool.assignIndices_atomic.map _
  | assignOffsets start sizeOf => exact (pool.assignOffsets_atomic start sizeOf).map _

theorem run_cons_of_error {pool : Pool} {call : Call} {failure : PoolError}
    (failed : (call.perform pool).result = .error failure) (later : List Call) :
    pool.run (call :: later) = { pool.run later with
      answers := .error failure :: (pool.run later).answers } := by
  obtain ⟨samePool, silent⟩ := pool.perform_atomic call failure failed
  simp only [run, failed, samePool, silent, List.nil_append]

def effective (pool : Pool) : List Call → List Call
  | [] => []
  | call :: rest =>
    match (call.perform pool).result with
    | .error _ => pool.effective rest
    | .ok _ => call :: (call.perform pool).pool.effective rest

theorem run_effective (pool : Pool) (calls : List Call) :
    pool.run (pool.effective calls) = { pool.run calls with
      answers := (pool.run calls).answers.filter fun answer => answer.isOk } := by
  induction calls generalizing pool with
  | nil => rfl
  | cons call rest ih =>
      cases outcome : (call.perform pool).result with
      | error failure =>
          simp only [effective, outcome, ih, run_cons_of_error outcome]
          rfl
      | ok answer =>
          simp only [effective, outcome, run, ih]
          rfl

/-- A pass that fails leaves every class as it was, its two writing loops never fail, and without
the failed calls of a run the others give the same answers and leave the same pool. -/
theorem failed_pass_has_no_effect (pool : Pool) :
    (∀ failure, pool.assignIndices.result = .error failure → pool.assignIndices.pool = pool) ∧
    (∀ start sizeOf failure, (pool.assignOffsets start sizeOf).result = .error failure →
      (pool.assignOffsets start sizeOf).pool = pool) ∧
    (∀ order plan, pool.precedence = .ok order → pool.planIndices 0 order = .ok plan →
      (write .classDefIndex plan pool).result = .ok ()) ∧
    (∀ start sizeOf entries plan stop, pool.byIndex = .ok entries →
      planOffsets sizeOf start entries = .ok (plan, stop) →
      (write .annotationDirectoryOffset plan pool).result = .ok ()) ∧
    (∀ call failure, (call.perform pool).result = .error failure → ∀ later,
      pool.run (call :: later) = { pool.run later with
        answers := .error failure :: (pool.run later).answers }) ∧
    ∀ calls, pool.run (pool.effective calls) = { pool.run calls with
      answers := (pool.run calls).answers.filter fun answer => answer.isOk } := by
  refine ⟨?_, ?_, ?_, ?_, fun _ _ => run_cons_of_error, pool.run_effective⟩
  · intro failure failed
    exact (pool.assignIndices_atomic failure failed).1
  · intro start sizeOf failure failed
    exact (pool.assignOffsets_atomic start sizeOf failure failed).1
  · intro order plan sorted planned
    have unique := (topological_of_precedence sorted).unique
    exact (write_of_writable (writable_of_planIndices unique planned)).1
  · intro start sizeOf entries plan stop sorted planned
    exact (write_of_writable (writable_of_planOffsets sorted planned)).1

theorem failures_have_no_effect :
    twisted.assignIndices.pool = twisted ∧
    (tagged.assignOffsets 0x101 fun _ => 0xFFFFFEF0).pool = tagged ∧
    (write .classDefIndex [(⟨"Ld;"⟩, 0), (⟨"Lc;"⟩, 1), (⟨"Lb;"⟩, 2), (⟨"La;"⟩, 3)]
      diamond).result = .ok () ∧
    (write .annotationDirectoryOffset [(⟨"La;"⟩, 0x104), (⟨"Lc;"⟩, 0x110)]
      tagged).result = .ok () ∧
    (tagged.run [.assignOffsets 0x101 fun _ => 0xFFFFFEF0, .assignOffsets 0x101 fun _ => 10]).pool =
      (tagged.run [.assignOffsets 0x101 fun _ => 10]).pool := by
  refine ⟨?_, ?_, ?_, ?_, ?_⟩
  · exact (failed_pass_has_no_effect twisted).1 (.hierarchyCycle ⟨"Lb;"⟩) (by cbv)
  · exact (failed_pass_has_no_effect tagged).2.1 0x101 (fun _ => 0xFFFFFEF0)
      (.offsetOverflow ⟨"Lc;"⟩) (by cbv)
  · exact (failed_pass_has_no_effect diamond).2.2.1 [⟨"Ld;"⟩, ⟨"Lc;"⟩, ⟨"Lb;"⟩, ⟨"La;"⟩] _
      (by cbv) (by cbv)
  · exact (failed_pass_has_no_effect tagged).2.2.2.1 0x101 (fun _ => 10) _ _ 0x11A
      (by cbv) (by cbv)
  · have failed : (Call.perform tagged (.assignOffsets 0x101 fun _ => 0xFFFFFEF0)).result =
        .error (.offsetOverflow ⟨"Lc;"⟩) := by cbv
    rw [(failed_pass_has_no_effect tagged).2.2.2.2.1 _ _ failed]

end Pool

end ClassTable
