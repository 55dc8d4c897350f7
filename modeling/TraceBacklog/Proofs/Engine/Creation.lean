/-
# Making a tracer

Whatever its configuration, making a tracer has one of three ends. A configuration that
`Config.validate` refuses gives the failure that it is refused with. An accepted one gives a
tracer with just that capacity, to which every request can be made, if the room for the
events has a size; the room is set aside at once, eight bytes an event, and no allocation may
have 2⁶³ bytes or more. Beyond this an accepted configuration makes the program abort: the
bound is not among the values that are checked (`Engine.valid_without_room`).

Key definitions: `Engine.Usable`.
Key theorems: `Engine.usable_iff`, `Engine.snd_newTracer`, `Engine.newTracer_by_room`,
`Engine.valid_without_room`.
-/
import Mathlib.Algebra.Group.Nat.Defs
import Mathlib.Tactic.Common
import TraceBacklog.Proofs.Route.Build

namespace TraceBacklog

/-- Room can be had for fewer than 2⁶³ bytes. -/
theorem Backlog.fits_iff {n : ℕ} (h : 0 < n) : fits n = true ↔ 8 * n < 2 ^ 63 := by
  have hbound : signedBound = 2 ^ 63 := rfl
  have hmax : max n 1 = n := Nat.max_eq_left h
  rw [fits, hmax, hbound, decide_eq_true_iff, Nat.mul_comm]

theorem Backlog.stats_ofCapacity {n : ℕ} (h : 0 < n) : (ofCapacity n).stats = ⟨0, n, 0, 0, 0⟩ :=
  congrArg (fun capacity => Stats.mk 0 capacity 0 0 0) (Nat.max_eq_left h)

/-- A refusal says what is wrong with the configuration. -/
theorem Config.exists_reason (c : Config) {failure : Failure} (h : c.validate = .error failure) :
    ∃ reason, failure = .invalidConfig reason := by
  unfold validate at h
  split at h
  · exact ⟨_, (Except.error.inj h).symm⟩
  · split at h
    · exact ⟨_, (Except.error.inj h).symm⟩
    · cases h

theorem Config.capacity_pos {c : Config} (h : c.validate = .ok ()) : 0 < c.capacity.toNat := by
  have hne : c.capacity ≠ 0 := (c.validate_eq_ok_iff.mp h).1
  refine Nat.pos_of_ne_zero fun hzero => hne ?_
  exact UInt64.toNat_inj.mp hzero

/-- What becomes of an accepted configuration hangs on its capacity alone. -/
theorem Tracer.ofConfig_of_valid {c : Config} (h : c.validate = .ok ()) (factory : FactoryRef) :
    ofConfig c factory =
      if 8 * c.capacity.toNat < 2 ^ 63 then
        .ok (fresh c (Backlog.ofCapacity c.capacity.toNat) factory)
      else .error (.aborted .capacityOverflow) := by
  have hfits := Backlog.fits_iff (Config.capacity_pos h)
  rw [ofConfig, h]
  dsimp only
  by_cases hroom : 8 * c.capacity.toNat < 2 ^ 63
  · rw [Backlog.new, if_pos (hfits.mpr hroom), if_pos hroom]
  · rw [Backlog.new, if_neg (mt hfits.mp hroom), if_neg hroom]

namespace Engine

/-! ### Usable tracers -/

/-- A tracer to which every request can be made, and with which routes can be built. -/
structure Usable (e : Engine) (r : TracerRef) : Prop where
  answers : ∀ c a, (e.perform r c).2 ≠ .error (.aborted a)
  wraps : ∀ route n target, ∃ p, (e.wrap route n (.trace r) target).2 = .ok p
  builds : ∀ route, ∃ stages, (e.build [.trace r] route).2 = .ok stages

/-- Only a shutdown makes a tracer unusable. -/
theorem usable_iff {e : Engine} {r : TracerRef} :
    e.Usable r ↔ (e.tracer r).isShutDown = false := by
  constructor
  · intro h
    by_contra hdown
    refine h.answers .start .usedAfterShutdown ?_
    rw [aborts_perform]
    exact ⟨rfl, eq_true_of_ne_false hdown, rfl⟩
  · intro hlive
    have hrefuses : e.refuses [.trace r] = false := by
      simp [refuses, refusesAt, hlive]
    refine ⟨fun c a h => ?_, fun route n target => ?_, fun route => ?_⟩
    · have hdown := ((e.aborts_perform r c a).mp h).2.1
      rw [hlive] at hdown
      cases hdown
    · rw [wrap_eq, refusesAt, hlive, if_neg Bool.false_ne_true]
      exact ⟨_, rfl⟩
    · rw [build_eq, hrefuses, if_neg fun h => Bool.false_ne_true h.1]
      exact ⟨_, rfl⟩

/-! ### The three ends -/

theorem snd_newTracer (e : Engine) (c : Config) (f : Option FactoryRef) :
    (e.newTracer c f).2 =
      match c.validate with
      | .error failure => .error (.failed failure)
      | .ok () =>
        if 8 * c.capacity.toNat < 2 ^ 63 then .ok ⟨e.tracers.length⟩
        else .error (.aborted .capacityOverflow) := by
  obtain ⟨e', factory, htracers, hnew⟩ : ∃ (e' : Engine) (factory : FactoryRef),
      e'.tracers = e.tracers ∧ (e.newTracer c f).2 =
        (Tracer.ofConfig c factory).map fun _ => ⟨e'.tracers.length⟩ := by
    unfold newTracer
    cases f with
    | none =>
      refine ⟨(e.newFactory .fresh).1, (e.newFactory .fresh).2, rfl, ?_⟩
      dsimp only
      split <;> simp [*, Except.map]
    | some factory =>
      refine ⟨e, factory, rfl, ?_⟩
      dsimp only
      split <;> simp [*, Except.map]
  rw [hnew, htracers]
  cases h : c.validate with
  | error failure =>
    rw [Tracer.ofConfig, h]
    rfl
  | ok =>
    rw [Tracer.ofConfig_of_valid h]
    dsimp only
    split <;> rfl

section Ends

variable (e : Engine) (c : Config) (f : Option FactoryRef)

/-- A tracer is refused as its configuration is. -/
theorem newTracer_fails_iff (failure : Failure) :
    (e.newTracer c f).2 = .error (.failed failure) ↔ c.validate = .error failure := by
  rw [snd_newTracer]
  cases c.validate with
  | error other => simp
  | ok =>
    dsimp only
    split <;> simp

theorem newTracer_aborts_iff (abort : Abort) :
    (e.newTracer c f).2 = .error (.aborted abort) ↔
      c.validate = .ok () ∧ 2 ^ 63 - 1 < 8 * c.capacity.toNat ∧ abort = .capacityOverflow := by
  rw [snd_newTracer]
  cases c.validate with
  | error other => simp
  | ok =>
    dsimp only
    split
    · constructor
      · rintro ⟨⟩
      · rintro ⟨-, hlarge, -⟩
        omega
    · constructor
      · rintro ⟨⟩
        exact ⟨rfl, by omega, rfl⟩
      · rintro ⟨-, -, rfl⟩
        rfl

/-- A tracer that is made comes after those that are there. -/
theorem newTracer_succeeds_iff (r : TracerRef) :
    (e.newTracer c f).2 = .ok r ↔
      c.validate = .ok () ∧ 8 * c.capacity.toNat ≤ 2 ^ 63 - 1 ∧ r = ⟨e.tracers.length⟩ := by
  rw [snd_newTracer]
  cases c.validate with
  | error other => simp
  | ok =>
    dsimp only
    split
    · constructor
      · rintro ⟨⟩
        exact ⟨rfl, by omega, rfl⟩
      · rintro ⟨-, -, rfl⟩
        rfl
    · constructor
      · rintro ⟨⟩
      · rintro ⟨-, hsmall, -⟩
        omega

end Ends

/-- A tracer that is made answers as it was configured. -/
theorem answers_of_newTracer {e made : Engine} {c : Config} {f : Option FactoryRef}
    {r : TracerRef} (hnew : e.newTracer c f = (made, .ok r)) :
    made.Usable r ∧
    made.perform r .state = (made, .ok (.state .started)) ∧
    made.perform r .stats = (made, .ok (.stats ⟨0, c.capacity.toNat, 0, 0, 0⟩)) ∧
    made.perform r .isEnabled = (made, .ok (.flag c.enabled)) ∧
    made.perform r .backlogSize = (made, .ok (.number c.backlogSize)) ∧
    made.perform r .lossPolicy = (made, .ok (.policy c.lossPolicy)) ∧
    made.perform r .trackedNodeCount = (made, .ok (.count 0)) := by
  obtain ⟨-, factory, ht⟩ := tracer_of_newTracer_eq hnew
  have hvalid : c.validate = .ok () :=
    ((newTracer_succeeds_iff e c f r).mp (congrArg Prod.snd hnew)).1
  have hstats : (Tracer.fresh c (Backlog.ofCapacity c.capacity.toNat) factory).backlog.stats =
      ⟨0, c.capacity.toNat, 0, 0, 0⟩ := Backlog.stats_ofCapacity (Config.capacity_pos hvalid)
  have hlive : (made.tracer r).isShutDown = false := by
    rw [ht]
    rfl
  refine ⟨usable_iff.mpr hlive, ?_⟩
  simp only [perform, isEnabled, backlogSize, askTracer, withUsable_of_isLive hlive, ht, hstats]
  exact ⟨rfl, trivial, rfl, rfl, rfl, rfl⟩

/-- **Making a tracer ends as the configuration says.** It fails exactly if the configuration is
refused, and with the same failure; it aborts exactly if the configuration is accepted and its
capacity asks for 2⁶³ bytes or more; and it gives a tracer in all other cases. If it gives none,
nothing changes. If it gives one, it is a further one, it is usable, and it is as configured:
started, empty, with this capacity and these settings. -/
theorem newTracer_by_room (e : Engine) (c : Config) (f : Option FactoryRef) :
    let made := (e.newTracer c f).1
    let result := (e.newTracer c f).2
    (∀ failure, result = .error (.failed failure) ↔ c.validate = .error failure) ∧
    (∀ failure, c.validate = .error failure → ∃ reason, failure = .invalidConfig reason) ∧
    (∀ abort, result = .error (.aborted abort) ↔
      c.validate = .ok () ∧ 2 ^ 63 - 1 < 8 * c.capacity.toNat ∧ abort = .capacityOverflow) ∧
    (∀ r, result = .ok r ↔
      c.validate = .ok () ∧ 8 * c.capacity.toNat ≤ 2 ^ 63 - 1 ∧ r = ⟨e.tracers.length⟩) ∧
    (∀ stop, result = .error stop → made = e) ∧
    ∀ r, result = .ok r → r.index < made.tracers.length ∧ made.Usable r ∧
      made.perform r .state = (made, .ok (.state .started)) ∧
      made.perform r .stats = (made, .ok (.stats ⟨0, c.capacity.toNat, 0, 0, 0⟩)) ∧
      made.perform r .isEnabled = (made, .ok (.flag c.enabled)) ∧
      made.perform r .backlogSize = (made, .ok (.number c.backlogSize)) ∧
      made.perform r .lossPolicy = (made, .ok (.policy c.lossPolicy)) ∧
      made.perform r .trackedNodeCount = (made, .ok (.count 0)) := by
  intro made result
  refine ⟨e.newTracer_fails_iff c f, fun failure => c.exists_reason, e.newTracer_aborts_iff c f,
    e.newTracer_succeeds_iff c f, fun stop h => ?_, fun r h => ?_⟩
  · obtain ⟨other, hnew⟩ | ⟨e', t, factory, -, -, hnew⟩ := e.newTracer_cases c f
    · exact congrArg Prod.fst hnew
    · have hok : result = .ok ⟨e.tracers.length⟩ := congrArg Prod.snd hnew
      rw [hok] at h
      cases h
  · have hnew : e.newTracer c f = (made, .ok r) := Prod.ext rfl h
    exact ⟨(tracer_of_newTracer_eq hnew).1, answers_of_newTracer hnew⟩

/-- A capacity of 2⁶⁰ events is accepted, and making the tracer aborts: its room would have 2⁶³
bytes. With one event less there is a tracer. -/
theorem valid_without_room :
    let huge : Config := { Config.default with capacity := 1152921504606846976 }
    let less : Config := { Config.default with capacity := 1152921504606846975 }
    huge.validate = .ok () ∧
    ((initial .epoch).newTracer huge none).2 = .error (.aborted .capacityOverflow) ∧
    ((initial .epoch).newTracer less none).2 = .ok ⟨0⟩ :=
  ⟨rfl, rfl, rfl⟩

end Engine

end TraceBacklog
