import VoiceCall.Proofs.Decoding.Workers

/-!
Pools in which nothing is left over: at rest, with an empty queue and workers that are all idle. A
task that is queued is run once and leaves such a pool as it was. Clearing a pool empties its queue.
-/

namespace VoiceCall.Proofs.Decoding.Settling

open VoiceCall.Decoding
open VoiceCall.Proofs.Decoding.Workers

variable {τ σ : Type} {n : Nat} {p p' : Pool τ}

structure Quiet (n : Nat) (p : Pool τ) : Prop where
  rests : Rests n p
  queue : p.queue = []
  idle : ∀ w ∈ p.workers, w.phase = .idle

theorem Quiet.exists_worker (h : Quiet n p) (hworkers : 0 < n) :
    ∃ id behind, p.workers = ⟨id, .idle⟩ :: behind := by
  have hcount : p.workers.length = n := h.rests.workerCount
  obtain ⟨⟨id, phase⟩, behind, hcons⟩ := List.exists_cons_of_length_pos (hcount ▸ hworkers)
  obtain rfl : phase = .idle := h.idle ⟨id, phase⟩ (hcons ▸ List.mem_cons_self)
  exact ⟨id, behind, hcons⟩

theorem Quiet.find?_isBusy (h : Quiet n p) : p.workers.find? Pool.isBusy = none := by
  refine List.find?_eq_none.mpr fun w hmem => ?_
  rw [Pool.isBusy, h.idle w hmem]
  exact Bool.false_ne_true

/-- A quiet pool that has workers takes a task up and finishes it, and is as it was before. -/
theorem Quiet.exists_steps (h : Quiet n p) (hworkers : 0 < n) (t : τ) :
    ∃ (id : Nat) (queued began : Pool τ), p.submit t = (queued, true) ∧ queued.effort = 2 ∧
      queued.enabled? = some (.take id) ∧ queued.step? (.take id) = some (began, none) ∧
        began.enabled? = some (.finish id) ∧
          began.step? (.finish id) = some ({ p with processed := p.processed + 1 }, some t) := by
  obtain ⟨id, behind, hcons⟩ := h.exists_worker hworkers
  have hids := h.rests.sound.ids
  let queued : Pool τ := { p with queue := [.task t] }
  let began : Pool τ := { p with queue := [], workers := ⟨id, .busy t⟩ :: behind }
  refine ⟨id, queued, began, ?_, ?_, ?_, ?_, ?_, ?_⟩
  · rw [Pool.submit, h.queue]
    exact if_pos h.rests.sound.room
  · have hcount : p.workers.countP Pool.isBusy = 0 :=
      List.countP_eq_zero.mpr (List.find?_eq_none.mp h.find?_isBusy)
    simp only [Pool.effort, queued, hcount, h.rests.orders, List.length_singleton, List.length_nil]
  · have hsomebody : p.workers.find? Pool.isIdle = some ⟨id, .idle⟩ := by
      rw [hcons]
      exact List.find?_cons_of_pos rfl
    simp only [Pool.enabled?, queued, h.find?_isBusy, hsomebody]
  · have hqueued : (queued.workers.map Worker.id).Nodup := hids
    have hfirst : queued.workers = [] ++ ⟨id, .idle⟩ :: behind := hcons
    rw [Pool.step?, take?_append hqueued rfl hfirst]
    rfl
  · rw [Pool.enabled?]
    rfl
  · have hbegan : (began.workers.map Worker.id).Nodup := by
      rw [hcons] at hids
      exact hids
    have hfirst : began.workers = [] ++ ⟨id, .busy t⟩ :: behind := rfl
    rw [Pool.step?, finish?_append hbegan hfirst, Option.map_some]
    simp only [began, hcons, h.queue, List.nil_append]

theorem Quiet.counted (h : Quiet n p) (processed : Nat) :
    Quiet n { p with processed := processed } where
  rests := ⟨⟨h.rests.sound.ids, h.rests.sound.fresh, h.rests.sound.room, h.rests.sound.orders,
    h.rests.sound.count⟩, h.rests.orders⟩
  queue := h.queue
  idle := h.idle

/-- The owner empties the queue with its last order, and has not yet come past that or has left
nothing queued. -/
def Emptying (p : Pool τ) : Prop :=
  (∃ before, p.orders = before ++ [.discard]) ∨ p.orders = [] ∧ p.queue = []

theorem Emptying.of_cons {order : Order} {orders : List Order} (h : Emptying p)
    (horders : p.orders = order :: orders) :
    (∃ before, orders = before ++ [.discard]) ∨ order = .discard ∧ orders = [] := by
  rcases h with ⟨before, hlast⟩ | ⟨hnone, -⟩
  · rw [horders] at hlast
    cases before with
    | nil => exact .inr (List.cons.inj hlast)
    | cons first before => exact .inl ⟨before, (List.cons.inj hlast).2⟩
  · rw [horders] at hnone
    cases hnone

theorem emptying_order (h : Emptying p) (hstep : p.order? = some p') : Emptying p' := by
  unfold Pool.order? at hstep
  split at hstep
  · cases hstep
  · rename_i orders horders
    split at hstep
    · cases hstep
      exact .inl ((h.of_cons horders).resolve_right (by simp))
    · cases hstep
  · rename_i orders horders
    split at hstep
    · cases hstep
      exact .inl ((h.of_cons horders).resolve_right (by simp))
    · cases hstep
  · rename_i orders horders
    split at hstep
    · rename_i hqueue
      cases hstep
      exact (h.of_cons horders).imp_right fun hdone => ⟨hdone.2, hqueue⟩
    · cases hstep
      exact .inl (h.resolve_right (by simp [horders]))

theorem emptying_step {step : Pool.Step} {done : Option τ} (h : Emptying p)
    (hstep : p.step? step = some (p', done)) : Emptying p' := by
  cases step with
  | take id =>
      obtain ⟨_, htake, ⟨⟩⟩ := Option.map_eq_some_iff.mp hstep
      unfold Pool.take? at htake
      split at htake
      · rename_i hqueue
        cases htake
        exact .inl (h.resolve_right (by simp [hqueue]))
      · cases htake
  | finish id =>
      obtain ⟨⟨_, _⟩, hfinish, ⟨⟩⟩ := Option.map_eq_some_iff.mp hstep
      unfold Pool.finish? at hfinish
      split at hfinish
      · cases hfinish
        exact h
      · cases hfinish
  | order =>
      obtain ⟨_, horder, ⟨⟩⟩ := Option.map_eq_some_iff.mp hstep
      exact emptying_order h horder

theorem queue_obey_clear (effect : τ → σ → σ) (s : σ)
    (horders : (p.clear.obey effect s).1.orders = []) : (p.clear.obey effect s).1.queue = [] := by
  have hbegun : Emptying p.clear := .inl ⟨_, (List.append_assoc _ _ _).symm⟩
  have hemptying : Emptying (p.clear.obey effect s).1 :=
    runFor_invariant (P := fun p _ => Emptying p) (fun hstep h => emptying_step h hstep)
      (fun hstep h => emptying_step h hstep) _ hbegun
  rcases hemptying with ⟨before, hlast⟩ | ⟨-, hqueue⟩
  · rw [horders] at hlast
    simp at hlast
  · exact hqueue

end VoiceCall.Proofs.Decoding.Settling
