import ObjectStore.Proofs.World.PendingWrite

/-!
This module follows a request from its start to its end, as long as nothing else happens: the call it
makes is answered by the adapter it was sent to, only later.
-/

namespace ObjectStore.World

/-- Starts a request and waits until it has ended. -/
def perform (w : World) (request : Request) : Task × World :=
  (w.start request).2.run (w.start request).1

/-- What a task that has ended returned, an object as it is in the world. -/
def object? (out : Task × World) : Option (Option Entity) :=
  match out.1 with
  | .finished (.ok (.entity e)) => some (e.map out.2.entity)
  | _ => none

/-- The world in which the call of a job arrives if nothing but that happens. -/
def arrival (w : World) (job : Job) (clock : Nat) : World :=
  { w.modifyAdapter (job.adapter w) fun a => a.noteCall (job.call w) with clock }

variable {w : World} {t : Task} {job : Job} {deadline rounds : Nat}

theorem isFinished_of_object? {out : Task × World} {x : Option Entity} (h : object? out = some x)
    : out.1.isFinished = true := by
  unfold object? at h
  split at h
  . next heq =>
    rw [heq]
    rfl
  . cases h

/-- Receiving a call changes nothing that an adapter answers from. -/
theorem adapter_arrival (w : World) (job : Job) (clock : Nat) (a : AdapterRef)
    : ∃ log, (w.arrival job clock).adapter a = { w.adapter a with log } := by
  by_cases ha : a = job.adapter w
  . by_cases hlt : a < w.adapters.size
    . subst ha
      exact ⟨_, w.adapter_modifyAdapter_self hlt _⟩
    . have hsame : (w.arrival job clock).adapter a = w.adapter a := by
        simp [adapter, arrival, World.modifyAdapter, hlt]
      exact ⟨_, hsame⟩
  . exact ⟨_, w.adapter_modifyAdapter_of_ne ha _⟩

theorem poll_calling_of_due (h : deadline ≤ w.clock)
    : w.poll (.calling job deadline) = w.arrive job := by
  unfold poll
  exact if_pos h

theorem poll_calling_of_not_due (h : ¬deadline ≤ w.clock)
    : w.poll (.calling job deadline) = (.calling job deadline, w) := by
  unfold poll
  exact if_neg h

theorem run_go_of_finished (h : (w.poll t).1.isFinished = true)
    : run.go (rounds + 1) w t = w.poll t := by
  rw [run.go]
  cases hpoll : w.poll t with | mk t' w' =>
  rw [hpoll] at h
  cases t' with
  | finished result => rfl
  | _ => cases h

theorem run_go_of_not_finished (h : (w.poll t).1.isFinished = false)
    : run.go (rounds + 1) w t
        =
      run.go rounds ((w.poll t).2.advance ((w.poll t).2.deadlines (w.poll t).1)) (w.poll t).1 := by
  rw [run.go]
  cases hpoll : w.poll t with | mk t' w' =>
  rw [hpoll] at h
  cases t' with
  | finished result => cases h
  | _ => rfl

theorem run_of_isFinished (h : t.isFinished = true) : w.run t = (t, w) := by
  cases t with
  | finished result => rfl
  | _ => cases h

/-- What holds at the start and stays true, in each poll and whenever the clock goes on, holds at the
end. -/
theorem run_induction {P : World → Task → Prop} (hpoll : ∀ w t, P w t → P (w.poll t).2 (w.poll t).1)
    (hclock : ∀ w t clock, P w t → P { w with clock } t) (h : P w t)
    : P (w.run t).2 (w.run t).1 := by
  unfold run
  generalize callsLeft t + 1 = rounds
  induction rounds generalizing w t with
  | zero => exact h
  | succ rounds ih =>
    have hpolled := hpoll w t h
    cases hfinished : (w.poll t).1.isFinished with
    | true =>
      rw [run_go_of_finished hfinished]
      exact hpolled
    | false =>
      rw [run_go_of_not_finished hfinished]
      apply ih
      unfold advance
      split
      . exact hclock _ _ _ hpolled
      . exact hpolled

theorem advance_deadline : w.advance [deadline] = { w with clock := max w.clock deadline } := rfl

/-- A task that does nothing before its deadline and ends when it is polled then. -/
theorem run_waiting (hunfinished : t.isFinished = false) (hrounds : 0 < callsLeft t)
    (hwait : ¬deadline ≤ w.clock → w.poll t = (t, w)) (hdeadlines : w.deadlines t = [deadline])
    (hfinishes : ∀ clock, deadline ≤ clock → (({ w with clock }).poll t).1.isFinished = true)
    : ∃ clock, deadline ≤ clock ∧ w.run t = ({ w with clock }).poll t := by
  obtain ⟨rounds, hrounds⟩ := Nat.exists_eq_add_one.2 hrounds
  unfold run
  rw [hrounds]
  by_cases hdue : deadline ≤ w.clock
  . exact ⟨w.clock, hdue, run_go_of_finished (hfinishes w.clock hdue)⟩
  . refine ⟨max w.clock deadline, Nat.le_max_right _ _, ?_⟩
    rw [run_go_of_not_finished, hwait hdue]
    . dsimp only
      rw [hdeadlines, advance_deadline]
      exact run_go_of_finished (hfinishes _ (Nat.le_max_right _ _))
    . rw [hwait hdue]
      exact hunfinished

theorem run_calling (hfinishes : ∀ clock, (({ w with clock }).arrive job).1.isFinished = true)
    : ∃ clock, w.run (.calling job deadline) = ({ w with clock }).arrive job := by
  have hrounds : 0 < callsLeft (.calling job deadline) := by
    cases job with
    | fetch q single => exact Nat.add_pos_left Nat.one_pos _
    | _ => exact Nat.one_pos
  obtain ⟨clock, hdue, hrun⟩ := run_waiting rfl hrounds poll_calling_of_not_due rfl
    fun clock hdue => by
      rw [poll_calling_of_due hdue]
      exact hfinishes clock
  rw [poll_calling_of_due hdue] at hrun
  exact ⟨clock, hrun⟩

/-- A task that ends as soon as its call is answered ends with this answer. -/
theorem run_call (hfinishes : ∀ clock, ((w.arrival job clock).arrive job).1.isFinished = true)
    : ∃ clock, (w.call job).2.run (w.call job).1 = (w.arrival job clock).arrive job := by
  rcases w.call_cases job with ⟨deadline, hcall⟩ | hcall
  . rw [hcall]
    exact run_calling hfinishes
  . rw [hcall]
    exact ⟨w.clock, run_of_isFinished (hfinishes w.clock)⟩

theorem object?_run_call {x : Option Entity}
    (harrive : ∀ clock, object? ((w.arrival job clock).arrive job) = some x)
    : object? ((w.call job).2.run (w.call job).1) = some x := by
  obtain ⟨clock, hrun⟩ := run_call fun clock => isFinished_of_object? (harrive clock)
  rw [hrun]
  exact harrive clock

end ObjectStore.World
