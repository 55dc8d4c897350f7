/-
# What the journal tells

The settings of a tracer can be read off the journal. It says of every toggle what the tracer
became, of every new backlog size what it is, and of every loss that was to be reported why
there was no event. A command that changes nothing, is refused or comes too late leaves no
entry, and no other entry stands for a setting. All of this is in the texts: the messages tell
the three kinds of entry from all others, and their fields say what the causes are (`said`).

What an action reports can be told from the engine before it (`Action.reports`,
`Engine.journal_act`). The latest entry of a kind then says what the setting is as long as
every action keeps this (`Told`). A shutdown is the one exception: it disables the tracer and
reports no toggle. No command to the tracer is heard after it, so the toggles alternate all the
same.

Key definitions: `toggles`, `backlogSizes`, `losses`, `said`, `Command.reports`,
`Action.reports`, `Action.Concerns`, `Told`.
Key theorems: `said_eq_map`, `Engine.journal_act`, `Engine.told_act`,
`Engine.journal_tells_settings`.
-/
import TraceBacklog.Proofs.Engine.Accounting
import TraceBacklog.Proofs.Engine.Tracking
import Mathlib.Data.List.Chain

namespace TraceBacklog

/-! ### Entries about settings and losses -/

namespace Entry

def toggle? : Entry → Option Bool
  | .toggled enabled => some enabled
  | _ => none

def backlogSize? : Entry → Option UInt64
  | .backlogSizeChanged size => some size
  | _ => none

def loss? : Entry → Option Failure
  | .dropped failure => some failure
  | _ => none

/-- What the entry says in a field. -/
def field? (key : String) (entry : Entry) : Option String := findEntry key entry.fields

/-- Is the entry about a setting or a loss? -/
def tells (entry : Entry) : Bool :=
  entry.message ∈ ["backlog tracer toggled", "backlog size changed", "dropped backlog trace event"]

end Entry

/-- What the toggles turned a tracer to. -/
def toggles (entries : List Entry) : List Bool := entries.filterMap Entry.toggle?

def backlogSizes (entries : List Entry) : List UInt64 := entries.filterMap Entry.backlogSize?

/-- Why messages had no snapshot. -/
def losses (entries : List Entry) : List Failure := entries.filterMap Entry.loss?

theorem toggles_append (first rest : List Entry) :
    toggles (first ++ rest) = toggles first ++ toggles rest := List.filterMap_append

theorem backlogSizes_append (first rest : List Entry) :
    backlogSizes (first ++ rest) = backlogSizes first ++ backlogSizes rest := List.filterMap_append

theorem losses_append (first rest : List Entry) :
    losses (first ++ rest) = losses first ++ losses rest := List.filterMap_append

/-! ### What the texts say -/

/-- What the entries with a level and a message say in a field, oldest first. -/
def said (level : Level) (message key : String) (entries : List Entry) : List (Option String) :=
  (entries.filter fun entry => entry.level = level ∧ entry.message = message).map (·.field? key)

/-- What entries with one text say is what their causes are, if an entry has this text exactly if
it has such a cause. -/
theorem said_eq_map {α : Type} {level : Level} {message key : String} {cause? : Entry → Option α}
    {text : α → String}
    (hcause : ∀ entry : Entry, (if entry.level = level ∧ entry.message = message then
      some (entry.field? key) else none) = (cause? entry).map fun a => some (text a))
    (entries : List Entry) :
    said level message key entries = (entries.filterMap cause?).map fun a => some (text a) := by
  rw [said, List.map_filterMap]
  induction entries with
  | nil => rfl
  | cons entry rest ih =>
    have hentry := hcause entry
    rw [List.filter_cons, List.filterMap_cons, ← hentry]
    by_cases h : entry.level = level ∧ entry.message = message
    · rw [if_pos (decide_eq_true h), if_pos h, List.map_cons, ih]
    · rw [if_neg (by simpa using h), if_neg h, ih]

/-- The messages tell toggles, backlog sizes and losses from each other and from everything else,
and the fields say what the causes are. -/
theorem said_toggled (entries : List Entry) :
    said .info "backlog tracer toggled" "enabled" entries =
      (toggles entries).map fun enabled => some (toString enabled) :=
  said_eq_map (fun entry => by cases entry <;> rfl) entries

theorem said_resized (entries : List Entry) :
    said .info "backlog size changed" "backlog_size" entries =
      (backlogSizes entries).map fun size => some (toString size.toNat) :=
  said_eq_map (fun entry => by cases entry <;> rfl) entries

theorem said_dropped (entries : List Entry) :
    said .warn "dropped backlog trace event" "error" entries =
      (losses entries).map fun failure => some failure.message :=
  said_eq_map (fun entry => by cases entry <;> rfl) entries

/-- The latest of some texts is the text of the latest. -/
theorem getLastD_map {α β : Type} (text : α → β) (items : List α) (a : α) :
    (items.map text).getLastD (text a) = text (items.getLastD a) := by
  rw [List.getLastD_eq_getLast?, List.getLastD_eq_getLast?, List.getLast?_map, Option.getD_map]

/-- Flags that alternate are written in turn. -/
theorem isChain_map_toString {flags : List Bool} (h : flags.IsChain (· ≠ ·)) :
    (flags.map fun flag => some (toString flag)).IsChain (· ≠ ·) := by
  refine List.isChain_map_of_isChain _ (fun a b hne htexts => hne ?_) h
  revert htexts
  cases a <;> cases b <;> decide

/-! ### What an action reports -/

/-- What a command reports that a tracer carries out. -/
def Command.reports (t : Tracer) : Command → List Entry
  | .setEnabled enabled =>
    (if enabled then [.idsAssigned t.trackedNodes.length] else []) ++
      if t.enabled = enabled then [] else [.toggled enabled]
  | .setBacklogSize size =>
    if 0 < size.toInt then [.backlogSizeChanged (UInt64.ofNat size.toInt.toNat)] else []
  | .start => [.started]
  | .stop => [.stopped]
  | .shutDown => [.shutDown]
  | _ => []

/-- Why there is no event, if this is to be reported. -/
def Capture.reportedLoss? (c : Capture) : Option Failure :=
  match c.message with
  | .ok _ => none
  | .error failure => if c.policy = .log then some failure else none

/-- What an action reports, oldest first. -/
def Action.reports (e : Engine) : Action → List Entry
  | .enter i x =>
    if (e.tracer i.tracer).enabled then (e.captureOf i x).reportedLoss?.toList.map .dropped else []
  | .perform r c =>
    if c.needsLive && (e.tracer r).isShutDown then [] else c.reports (e.tracer r)
  | .noteWrapping n first => [.wrapping (n.display e.ids) first]
  | .noteBuilt routeId nodes => [.routeBuilt routeId nodes]
  | _ => []

namespace Engine

theorem journal_nodeId (e : Engine) (f : FactoryRef) (n : Node) :
    (e.nodeId f n).1.journal = e.journal := by
  unfold nodeId
  split <;> rfl

theorem journal_capture (e : Engine) (i : Interceptor) (x : Exchange) :
    (e.capture i x).journal =
      (e.captureOf i x).reportedLoss?.toList.map .dropped ++ e.journal := by
  have hnumbered : (e.numbered i).journal = e.journal := e.journal_nodeId _ _
  have hpolicy : ((e.numbered i).tracer i.tracer).lossPolicy = (e.tracer i.tracer).lossPolicy := by
    rw [tracer_congr (e.tracers_numbered i)]
    exact tracer_modifyTracer_keeps (·.lossPolicy) e _ _ fun _ => rfl
  have hcapture : (e.captureOf i x).policy = (e.tracer i.tracer).lossPolicy := rfl
  rw [capture_eq, Capture.reportedLoss?]
  cases (e.captureOf i x).message with
  | ok message => exact hnumbered
  | error failure =>
    show ((e.numbered i).lose i.tracer failure).journal = _
    rw [lose, hpolicy, hcapture]
    dsimp only
    by_cases hlog : (e.tracer i.tracer).lossPolicy = .log
    · rw [if_pos hlog, if_pos hlog]
      exact congrArg (Entry.dropped failure :: ·) hnumbered
    · rw [if_neg hlog, if_neg hlog]
      exact hnumbered

theorem journal_perform (e : Engine) (r : TracerRef) (c : Command) :
    (e.perform r c).1.journal = ((Action.perform r c).reports e).reverse ++ e.journal := by
  rw [Action.reports]
  cases hdead : c.needsLive && (e.tracer r).isShutDown with
  | true =>
    rw [Bool.and_eq_true] at hdead
    rw [perform_of_isShutDown hdead.2 hdead.1]
    rfl
  | false =>
    rw [if_neg Bool.false_ne_true]
    cases c with
    | setEnabled enabled =>
      show (e.setEnabled r enabled).1.journal = _
      rw [setEnabled, useTracer, withUsable_of_isLive hdead, Command.reports]
      dsimp only
      by_cases hsame : (e.tracer r).enabled = enabled
      · rw [if_pos hsame, if_pos hsame]
        cases enabled <;> rfl
      · rw [if_neg hsame, if_neg hsame]
        cases enabled <;> rfl
    | setBacklogSize size =>
      show (e.setBacklogSize r size).1.journal = _
      rw [setBacklogSize, withUsable_of_isLive hdead, Command.reports]
      dsimp only
      split <;> rfl
    | isEnabled | backlogSize | traceCounter | dump id | latest id =>
      simp only [perform, isEnabled, backlogSize, traceCounter, dump, latest, fst_answer,
        fst_askTracer]
      rfl
    | lossPolicy | captureFailures | trackedNodeCount | stats | state | describe | backlog => rfl
    | _ =>
      show (e.withUsable r _).1.journal = _
      rw [withUsable_of_isLive hdead]
      rfl

/-- **The journal grows by what an action reports.** -/
theorem journal_act (e : Engine) (a : Action) :
    (e.act a).journal = (a.reports e).reverse ++ e.journal := by
  cases a with
  | enter i x =>
    rw [act, Action.reports]
    cases henabled : (e.tracer i.tracer).enabled with
    | true =>
      rw [enter_of_enabled henabled, if_pos rfl, journal_capture]
      cases (e.captureOf i x).reportedLoss? <;> rfl
    | false =>
      rw [enter_of_disabled henabled, if_neg Bool.false_ne_true]
      rfl
  | perform r c => exact e.journal_perform r c
  | track r n =>
    rw [act, track, useTracer, withUsable]
    split
    · rfl
    · dsimp only
      split <;> rfl
  | newTracer c f =>
    rw [act]
    unfold newTracer
    cases f <;> dsimp only <;> split <;> rfl
  | visit name kind => cases name <;> rfl
  | _ => rfl

end Engine

/-! ### What a command reports of a tracer -/

namespace Command

variable (t : Tracer)

theorem toggles_reports_of_ne {c : Command} (h : ∀ enabled, c ≠ .setEnabled enabled) :
    toggles (c.reports t) = [] := by
  cases c with
  | setEnabled enabled => exact absurd rfl (h enabled)
  | setBacklogSize size =>
    rw [reports]
    split <;> rfl
  | _ => rfl

theorem toggles_reports_setEnabled (enabled : Bool) :
    toggles ((setEnabled enabled).reports t) = if t.enabled = enabled then [] else [enabled] := by
  rw [reports, toggles_append]
  by_cases hsame : t.enabled = enabled
  · rw [if_pos hsame, if_pos hsame]
    cases enabled <;> rfl
  · rw [if_neg hsame, if_neg hsame]
    cases enabled <;> rfl

theorem backlogSizes_reports_of_ne {c : Command} (h : ∀ size, c ≠ .setBacklogSize size) :
    backlogSizes (c.reports t) = [] := by
  cases c with
  | setBacklogSize size => exact absurd rfl (h size)
  | setEnabled enabled =>
    rw [reports]
    cases enabled <;> cases t.enabled <;> rfl
  | _ => rfl

theorem losses_reports (c : Command) : losses (c.reports t) = [] := by
  cases c with
  | setBacklogSize size =>
    rw [reports]
    split <;> rfl
  | setEnabled enabled =>
    rw [reports]
    cases enabled <;> cases t.enabled <;> rfl
  | _ => rfl

end Command

namespace Tracer

variable (t : Tracer)

/-- A tracer that carries out a command is enabled or not as the latest toggle says; only a
shutdown disables it without one. -/
theorem enabled_apply {c : Command} (hc : c ≠ .shutDown) :
    (t.apply c).enabled = (toggles (c.reports t)).getLastD t.enabled := by
  cases c with
  | setEnabled enabled =>
    rw [Command.toggles_reports_setEnabled]
    by_cases hsame : t.enabled = enabled
    · rw [if_pos hsame]
      exact hsame.symm
    · rw [if_neg hsame]
      rfl
  | shutDown => exact absurd rfl hc
  | setBacklogSize size =>
    rw [Command.toggles_reports_of_ne t (by simp), apply]
    split <;> rfl
  | _ => rfl

theorem backlogSize_apply (c : Command) :
    (t.apply c).backlogSize = (backlogSizes (c.reports t)).getLastD t.backlogSize := by
  cases c with
  | setBacklogSize size =>
    rw [apply, Command.reports]
    split <;> rfl
  | setEnabled enabled =>
    rw [Command.backlogSizes_reports_of_ne t (by simp)]
    rfl
  | _ => rfl

/-- A toggle turns the tracer to what it was not. -/
theorem isChain_toggles (c : Command) :
    (t.enabled :: toggles (c.reports t)).IsChain (· ≠ ·) := by
  by_cases hc : ∃ enabled, c = .setEnabled enabled
  · obtain ⟨enabled, rfl⟩ := hc
    rw [Command.toggles_reports_setEnabled]
    by_cases hsame : t.enabled = enabled
    · rw [if_pos hsame]
      exact .singleton _
    · rw [if_neg hsame]
      exact .cons_cons hsame (.singleton _)
  · rw [Command.toggles_reports_of_ne t fun enabled h => hc ⟨enabled, h⟩]
    exact .singleton _

end Tracer

/-! ### What an action reports of a tracer -/

/-- Of all tracers only this one is asked anything or captures anything. -/
def Action.Concerns (r : TracerRef) : Action → Prop
  | .enter i _ => i.tracer = r
  | .perform s _ => s = r
  | _ => True

/-- Settings are reported by commands alone. -/
theorem Action.settings_reports_of_ne (e : Engine) {a : Action} (ha : ∀ s c, a ≠ .perform s c) :
    toggles (a.reports e) = [] ∧ backlogSizes (a.reports e) = [] := by
  cases a with
  | perform s c => exact absurd rfl (ha s c)
  | enter i x =>
    rw [reports]
    split
    · cases (e.captureOf i x).reportedLoss? <;> exact ⟨rfl, rfl⟩
    · exact ⟨rfl, rfl⟩
  | _ => exact ⟨rfl, rfl⟩

/-- What bookkeeping reports is about nodes and routes. -/
theorem Action.IsBookkeeping.filter_tells {a : Action} (ha : a.IsBookkeeping) (e : Engine) :
    (a.reports e).filter Entry.tells = [] := by
  cases a with
  | enter i x => exact ha.elim
  | perform s c => exact ha.elim
  | _ => rfl

namespace Engine

variable {e : Engine} {r : TracerRef}

section Keeps

variable {α : Type} (keep : Tracer → α)
  (hcounter : ∀ (t : Tracer) (n : UInt64), keep { t with traceCounter := n } = keep t)
  (hbacklog : ∀ (t : Tracer) (b : Backlog), keep { t with backlog := b } = keep t)
  (hfailures : ∀ (t : Tracer) (n : UInt64), keep { t with captureFailures := n } = keep t)
  (htracked : ∀ (t : Tracer) (tracked : Tracked), keep { t with tracked := tracked } = keep t)

include hcounter hbacklog hfailures htracked

/-- Settings are changed by commands alone. -/
theorem tracer_act_keeps_of_ne (hr : r.index < e.tracers.length) {a : Action}
    (ha : ∀ s c, a ≠ .perform s c) : keep ((e.act a).tracer r) = keep (e.tracer r) := by
  cases a with
  | perform s c => exact absurd rfl (ha s c)
  | enter i x => exact tracer_enter_keeps keep hcounter hbacklog hfailures e i x r
  | track s n => exact tracer_act_keeps keep htracked e (a := .track s n) trivial r
  | untrack s n => exact tracer_act_keeps keep htracked e (a := .untrack s n) trivial r
  | newTracer c f => exact congrArg keep (tracer_newTracer_of_lt hr c f)
  | visit name kind => exact congrArg keep (tracer_congr (e.tracers_visit name kind) r)
  | _ => rfl

end Keeps

/-- A tracer that is not shut down is enabled or not as the latest toggle says. -/
theorem enabled_act (hr : r.index < e.tracers.length) {a : Action} (ha : a.Concerns r)
    (hlive : ((e.act a).tracer r).isShutDown = false) :
    ((e.act a).tracer r).enabled = (toggles (a.reports e)).getLastD (e.tracer r).enabled := by
  by_cases hcommand : ∃ s c, a = .perform s c
  · obtain ⟨s, c, rfl⟩ := hcommand
    obtain rfl : s = r := ha
    have hbefore := isLive_of_act hlive
    rw [act, tracer_perform_self c hr, Tracer.obey, hbefore, Bool.and_false,
      if_neg Bool.false_ne_true] at hlive ⊢
    rw [Action.reports, hbefore, Bool.and_false, if_neg Bool.false_ne_true]
    refine (e.tracer s).enabled_apply ?_
    rintro rfl
    cases hlive
  · have hne : ∀ s c, a ≠ .perform s c := fun s c h => hcommand ⟨s, c, h⟩
    rw [(Action.settings_reports_of_ne e hne).1]
    exact tracer_act_keeps_of_ne (·.enabled) (fun _ _ => rfl) (fun _ _ => rfl) (fun _ _ => rfl)
      (fun _ _ => rfl) hr hne

theorem backlogSize_act (hr : r.index < e.tracers.length) {a : Action} (ha : a.Concerns r) :
    ((e.act a).tracer r).backlogSize =
      (backlogSizes (a.reports e)).getLastD (e.tracer r).backlogSize := by
  by_cases hcommand : ∃ s c, a = .perform s c
  · obtain ⟨s, c, rfl⟩ := hcommand
    obtain rfl : s = r := ha
    rw [act, tracer_perform_self c hr, Tracer.obey, Action.reports]
    split
    · rfl
    · exact (e.tracer s).backlogSize_apply c
  · have hne : ∀ s c, a ≠ .perform s c := fun s c h => hcommand ⟨s, c, h⟩
    rw [(Action.settings_reports_of_ne e hne).2]
    exact tracer_act_keeps_of_ne (·.backlogSize) (fun _ _ => rfl) (fun _ _ => rfl)
      (fun _ _ => rfl) (fun _ _ => rfl) hr hne

theorem isChain_toggles_act {a : Action} (ha : a.Concerns r) :
    ((e.tracer r).enabled :: toggles (a.reports e)).IsChain (· ≠ ·) := by
  by_cases hcommand : ∃ s c, a = .perform s c
  · obtain ⟨s, c, rfl⟩ := hcommand
    obtain rfl : s = r := ha
    rw [Action.reports]
    split
    · exact .singleton _
    · exact (e.tracer s).isChain_toggles c
  · have hne : ∀ s c, a ≠ .perform s c := fun s c h => hcommand ⟨s, c, h⟩
    rw [(Action.settings_reports_of_ne e hne).1]
    exact .singleton _

/-- A tracer that was shut down is toggled no more. -/
theorem toggles_act_of_isShutDown (h : (e.tracer r).isShutDown = true) {a : Action}
    (ha : a.Concerns r) : toggles (a.reports e) = [] := by
  by_cases hcommand : ∃ s c, a = .perform s c
  · obtain ⟨s, c, rfl⟩ := hcommand
    obtain rfl : s = r := ha
    rw [Action.reports, h, Bool.and_true]
    split
    · rfl
    · next hc => exact Command.toggles_reports_of_ne _ fun enabled heq => hc (heq ▸ rfl)
  · have hne : ∀ s c, a ≠ .perform s c := fun s c h => hcommand ⟨s, c, h⟩
    exact (Action.settings_reports_of_ne e hne).1

/-- The losses that are reported are those of the captures that are made. -/
theorem losses_act {a : Action} (ha : a.Concerns r) : losses (a.reports e) =
    (captures (a.occurrence r e).toList).filterMap Capture.reportedLoss? := by
  cases a with
  | enter i x =>
    obtain rfl : i.tracer = r := ha
    rw [Action.reports, Action.occurrence, if_pos rfl]
    cases (e.tracer i.tracer).enabled with
    | true =>
      show losses ((e.captureOf i x).reportedLoss?.toList.map .dropped) =
        [e.captureOf i x].filterMap Capture.reportedLoss?
      rw [List.filterMap_cons]
      cases (e.captureOf i x).reportedLoss? <;> rfl
    | false => rfl
  | perform s c =>
    obtain rfl : s = r := ha
    have hnone : losses ((Action.perform s c).reports e) = [] := by
      rw [Action.reports]
      split
      · rfl
      · exact c.losses_reports _
    rw [hnone, Action.occurrence.eq_def]
    split
    · next h => cases h
    · split <;> rfl
    · rfl
  | _ => rfl

/-- Whoever gets the event of a capture, a loss is counted by the tracer. -/
theorem captureFailures_capture {i : Interceptor} (hr : i.tracer.index < e.tracers.length)
    (x : Exchange) :
    ((e.capture i x).tracer i.tracer).captureFailures =
      ((e.tracer i.tracer).absorb (e.captureOf i x)).captureFailures := by
  have htracers := e.tracers_capture i x
  rw [Tracer.absorb]
  cases hevent : (e.captureOf i x).event? with
  | some event =>
    rw [hevent] at htracers
    have hstored (t : Tracer) (b : Backlog) :
        ({ t with backlog := b } : Tracer).captureFailures = t.captureFailures := rfl
    rw [tracer_congr htracers, tracer_modifyTracer_keeps (·.captureFailures) _ _ _ fun t =>
      hstored t _, tracer_modifyTracer_self _ hr]
  | none =>
    rw [hevent] at htracers
    rw [tracer_congr htracers, tracer_modifyTracer_self _ hr]

/-- A tracer counts the losses of its captures that are to be counted. -/
theorem captureFailures_act (hr : r.index < e.tracers.length) {a : Action} (ha : a.Concerns r) :
    ((e.act a).tracer r).captureFailures = (e.tracer r).captureFailures +
      UInt64.ofNat ((captures (a.occurrence r e).toList).filter Capture.countedLoss).length := by
  cases a with
  | enter i x =>
    obtain rfl : i.tracer = r := ha
    rw [act, Action.occurrence, if_pos rfl]
    cases henabled : (e.tracer i.tracer).enabled with
    | true =>
      have hcount := (e.tracer i.tracer).captureFailures_absorb (e.captureOf i x)
      rw [enter_of_enabled henabled, captureFailures_capture hr, hcount]
      show _ + (if (e.captureOf i x).countedLoss then 1 else 0) =
        _ + UInt64.ofNat ([e.captureOf i x].filter Capture.countedLoss).length
      rw [List.filter_cons]
      cases (e.captureOf i x).countedLoss <;> rfl
    | false =>
      rw [enter_of_disabled henabled]
      exact (UInt64.add_zero _).symm
  | perform s c =>
    obtain rfl : s = r := ha
    have hnone : captures ((Action.perform s c).occurrence s e).toList = [] := by
      rw [Action.occurrence.eq_def]
      split
      · next h => cases h
      · split <;> rfl
      · rfl
    have hkeeps : ((e.tracer s).obey c).captureFailures = (e.tracer s).captureFailures := by
      rw [Tracer.obey]
      split
      · rfl
      · cases c with
        | setBacklogSize size =>
          rw [Tracer.apply]
          split <;> rfl
        | _ => rfl
    rw [hnone, act, tracer_perform_self c hr, hkeeps]
    exact (UInt64.add_zero _).symm
  | track s n =>
    rw [tracer_act_keeps (·.captureFailures) (fun _ _ => rfl) e (a := .track s n) trivial]
    exact (UInt64.add_zero _).symm
  | untrack s n =>
    rw [tracer_act_keeps (·.captureFailures) (fun _ _ => rfl) e (a := .untrack s n) trivial]
    exact (UInt64.add_zero _).symm
  | newTracer c f =>
    rw [act, tracer_newTracer_of_lt hr]
    exact (UInt64.add_zero _).symm
  | visit name kind =>
    rw [act, tracer_congr (e.tracers_visit name kind)]
    exact (UInt64.add_zero _).symm
  | _ => exact (UInt64.add_zero _).symm

end Engine

/-! ### What the journal tells -/

/-- There was no snapshot, and the policy was to report this. -/
def Capture.reportedLoss (c : Capture) : Bool := c.failed && c.policy = .log

theorem Capture.isSome_reportedLoss? (c : Capture) : c.reportedLoss?.isSome = c.reportedLoss := by
  rw [reportedLoss, reportedLoss?, failed, event?]
  cases c.message with
  | ok message => rfl
  | error failure =>
    dsimp only
    by_cases hlog : c.policy = .log
    · rw [if_pos hlog, decide_eq_true hlog]
      rfl
    · rw [if_neg hlog, decide_eq_false hlog]
      rfl

/-- What is reported is counted. -/
theorem Capture.countedLoss_of_reportedLoss {c : Capture} (h : c.reportedLoss = true) :
    c.countedLoss = true := by
  rw [reportedLoss, Bool.and_eq_true, decide_eq_true_iff] at h
  rw [countedLoss, h.1, h.2]
  rfl

theorem length_filterMap_reportedLoss? (captures : List Capture) :
    (captures.filterMap Capture.reportedLoss?).length =
      (captures.filter Capture.reportedLoss).length := by
  rw [List.length_filterMap_eq_countP, ← List.countP_eq_length_filter]
  exact List.countP_congr fun c _ => by rw [c.isSome_reportedLoss?]

theorem getLastD_append {α : Type} (first rest : List α) (a : α) :
    (first ++ rest).getLastD a = rest.getLastD (first.getLastD a) := by
  rw [List.getLastD_eq_getLast?, List.getLastD_eq_getLast?, List.getLastD_eq_getLast?,
    List.getLast?_append, Option.getD_or]

/-- A chain goes on with one that starts where it ends. -/
theorem isChain_cons_append {α : Type} {rel : α → α → Prop} {a : α} {first rest : List α}
    (h : (a :: first).IsChain rel) (hrest : (first.getLastD a :: rest).IsChain rel) :
    (a :: (first ++ rest)).IsChain rel := by
  induction first generalizing a with
  | nil => exact hrest
  | cons b first ih =>
    cases h with
    | cons_cons hab htail =>
      rw [List.getLastD_cons] at hrest
      exact .cons_cons hab (ih htail hrest)

/-- The entries since its making tell what the tracer is set to, as long as it was not shut
down, and which of its captures had no snapshot. -/
structure Told (start : Bool) (size : UInt64) (t : Tracer) (past : List Capture)
    (entries : List Entry) : Prop where
  enabled : t.isShutDown = false → t.enabled = (toggles entries).getLastD start
  alternate : (start :: toggles entries).IsChain (· ≠ ·)
  backlogSize : t.backlogSize = (backlogSizes entries).getLastD size
  losses : losses entries = past.filterMap Capture.reportedLoss?
  failures : t.captureFailures = UInt64.ofNat (past.filter Capture.countedLoss).length

theorem told_fresh (config : Config) (backlog : Backlog) (f : FactoryRef) :
    Told config.enabled config.backlogSize (.fresh config backlog f) [] [] :=
  ⟨fun _ => rfl, .singleton _, rfl, rfl, rfl⟩

/-- As long as the counter does not overflow it is ahead of the reports. -/
theorem Told.length_losses_le {start : Bool} {size : UInt64} {t : Tracer} {past : List Capture}
    {entries : List Entry} (h : Told start size t past entries)
    (hfew : (past.filter Capture.countedLoss).length < UInt64.size) :
    (TraceBacklog.losses entries).length ≤ t.captureFailures.toNat := by
  rw [h.losses, h.failures, length_filterMap_reportedLoss?, UInt64.toNat_ofNat_of_lt' hfew]
  exact List.Sublist.length_le
    (List.monotone_filter_right past fun c => Capture.countedLoss_of_reportedLoss)

/-- What some actions report, oldest first. -/
def Engine.reportsAll (e : Engine) : List Action → List Entry
  | [] => []
  | a :: rest => a.reports e ++ reportsAll (e.act a) rest

namespace Engine

variable {e : Engine} {r : TracerRef}

theorem journal_actAll (e : Engine) (actions : List Action) :
    (e.actAll actions).journal = (e.reportsAll actions).reverse ++ e.journal := by
  induction actions generalizing e with
  | nil => rfl
  | cons a rest ih =>
    rw [actAll_cons, ih, journal_act, reportsAll, List.reverse_append, List.append_assoc]

/-- **The journal goes on telling.** Whatever is done, the new entries say what it made of the
settings. -/
theorem told_act {start : Bool} {size : UInt64} {past : List Capture} {entries : List Entry}
    (hr : r.index < e.tracers.length) (h : Told start size (e.tracer r) past entries)
    {a : Action} (ha : a.Concerns r) :
    Told start size ((e.act a).tracer r) (past ++ captures (a.occurrence r e).toList)
      (entries ++ a.reports e) where
  enabled hlive := by
    rw [toggles_append, getLastD_append, ← h.enabled (isLive_of_act hlive)]
    exact enabled_act hr ha hlive
  alternate := by
    rw [toggles_append]
    cases hdown : (e.tracer r).isShutDown with
    | true =>
      rw [toggles_act_of_isShutDown hdown ha, List.append_nil]
      exact h.alternate
    | false => exact isChain_cons_append h.alternate (h.enabled hdown ▸ isChain_toggles_act ha)
  backlogSize := by
    rw [backlogSizes_append, getLastD_append, ← h.backlogSize]
    exact backlogSize_act hr ha
  losses := by
    rw [losses_append, h.losses, losses_act ha, List.filterMap_append]
  failures := by
    rw [captureFailures_act hr ha, h.failures, List.filter_append, List.length_append,
      UInt64.ofNat_add]

theorem told_actAll {start : Bool} {size : UInt64} {past : List Capture} {entries : List Entry}
    (hr : r.index < e.tracers.length) (h : Told start size (e.tracer r) past entries)
    {actions : List Action} (ha : ∀ a ∈ actions, a.Concerns r) :
    Told start size ((e.actAll actions).tracer r) (past ++ captures (e.history r actions))
      (entries ++ e.reportsAll actions) := by
  induction actions generalizing e past entries with
  | nil =>
    rw [history, reportsAll]
    simpa [captures] using h
  | cons a rest ih =>
    have hact := told_act hr h (ha a List.mem_cons_self)
    have hrest := ih (hr.trans_le (e.length_tracers_le_act a)) hact fun b hb =>
      ha b (List.mem_cons_of_mem _ hb)
    rw [List.append_assoc, List.append_assoc] at hrest
    rw [actAll_cons, history, reportsAll, captures, List.filterMap_append]
    exact hrest

/-- A request that is refused, or that comes too late, changes nothing. -/
theorem perform_of_error {c : Command} {stop : Stop} (h : (e.perform r c).2 = .error stop) :
    (e.perform r c).1 = e := by
  cases hdead : c.needsLive && (e.tracer r).isShutDown with
  | true =>
    rw [Bool.and_eq_true] at hdead
    rw [perform_of_isShutDown hdead.2 hdead.1]
  | false =>
    cases c with
    | setBacklogSize size =>
      change (answer _ (e.setBacklogSize r size)).2 = _ at h
      show (e.setBacklogSize r size).1 = e
      rw [setBacklogSize, withUsable_of_isLive hdead] at h ⊢
      by_cases hpos : 0 < size.toInt
      · rw [if_pos hpos] at h
        cases h
      · rw [if_neg hpos]
    | lossPolicy | captureFailures | trackedNodeCount | stats | state | describe | backlog =>
      cases h
    | _ =>
      change (answer _ (e.withUsable r _)).2 = _ at h
      rw [withUsable_of_isLive hdead] at h
      cases h

/-- Tells of no setting and of no loss. -/
theorem filter_tells_actAll_of_bookkeeping {actions : List Action}
    (h : ∀ a ∈ actions, a.IsBookkeeping) : (e.reportsAll actions).filter Entry.tells = [] := by
  induction actions generalizing e with
  | nil => rfl
  | cons a rest ih =>
    rw [reportsAll, List.filter_append, (h a List.mem_cons_self).filter_tells,
      ih fun b hb => h b (List.mem_cons_of_mem _ hb)]
    rfl

/-- **The journal tells what a tracer is set to.** Let a tracer be made, and let a run concern
no other tracer. At every moment of the run, in the middle of a passage as well, the entries
since the making of the tracer say this. As long as it was not shut down it is enabled as the
latest toggle says, or as configured if there was none; and toggles are alternate, the first one
away from the start. The backlog size is the latest that was reported, or the configured one.
The losses that were reported are those of the captures without a snapshot under the policy to
report them, in their order, so they are no more than the losses that were counted. All of this
can be read in the fields of the entries with the levels and messages that belong to it, and
toggles, sizes and losses are what these texts say. A request that is refused or aborts changes
nothing in the engine, and no wrapping of a node and no build, whether it aborts or not, reports
anything of the kind. -/
theorem journal_tells_settings {e made : Engine} {config : Config} {f : Option FactoryRef}
    {r : TracerRef} (hnew : e.newTracer config f = (made, .ok r)) {ops : List Operation}
    (hsingle : ∀ a ∈ made.actionsAll ops, a.Concerns r) :
    made.operateAll ops = made.actAll (made.actionsAll ops) ∧
    ∀ moment, moment <+: made.actionsAll ops →
      let now := made.actAll moment
      let t := now.tracer r
      let past := captures (made.history r moment)
      (∃ entries, now.journal = entries.reverse ++ made.journal ∧
        let toggled := said .info "backlog tracer toggled" "enabled" entries
        let resized := said .info "backlog size changed" "backlog_size" entries
        let dropped := said .warn "dropped backlog trace event" "error" entries
        toggled = (toggles entries).map (fun enabled => some (toString enabled)) ∧
        resized = (backlogSizes entries).map (fun size => some (toString size.toNat)) ∧
        dropped = (losses entries).map (fun failure => some failure.message) ∧
        (t.isShutDown = false →
          some (toString t.enabled) = toggled.getLastD (some (toString config.enabled))) ∧
        (some (toString config.enabled) :: toggled).IsChain (· ≠ ·) ∧
        some (toString t.backlogSize.toNat) =
          resized.getLastD (some (toString config.backlogSize.toNat)) ∧
        dropped.length = (past.filter Capture.reportedLoss).length ∧
        (t.isShutDown = false → t.enabled = (toggles entries).getLastD config.enabled) ∧
        (config.enabled :: toggles entries).IsChain (· ≠ ·) ∧
        t.backlogSize = (backlogSizes entries).getLastD config.backlogSize ∧
        losses entries = past.filterMap Capture.reportedLoss? ∧
        (losses entries).length = (past.filter Capture.reportedLoss).length ∧
        ((past.filter Capture.countedLoss).length < UInt64.size →
          (losses entries).length ≤ t.captureFailures.toNat)) ∧
      (∀ c stop, (now.perform r c).2 = .error stop → (now.perform r c).1 = now) ∧
      (∀ route n s target, ∃ entries : List Entry, entries.filter Entry.tells = [] ∧
        (now.wrap route n s target).1.journal = entries.reverse ++ now.journal) ∧
      ∀ strategies route, ∃ entries : List Entry, entries.filter Entry.tells = [] ∧
        (now.build strategies route).1.journal = entries.reverse ++ now.journal := by
  refine ⟨made.operateAll_eq_actAll ops, fun moment hmoment => ?_⟩
  intro now t past
  obtain ⟨hr, factory, hfresh⟩ := tracer_of_newTracer_eq hnew
  have hmade : Told config.enabled config.backlogSize (made.tracer r) [] [] :=
    hfresh ▸ told_fresh ..
  have h : Told config.enabled config.backlogSize t past (made.reportsAll moment) :=
    told_actAll hr hmade fun a ha => hsingle a (hmoment.subset ha)
  have hlosses : (losses (made.reportsAll moment)).length =
      (past.filter Capture.reportedLoss).length := by
    rw [h.losses, length_filterMap_reportedLoss?]
  refine ⟨⟨made.reportsAll moment, made.journal_actAll moment, said_toggled _, said_resized _,
    said_dropped _, fun hlive => ?_, ?_, ?_, ?_, h.enabled, h.alternate, h.backlogSize, h.losses,
    hlosses, h.length_losses_le⟩, fun c stop => perform_of_error, fun route n s target => ?_,
    fun strategies route => ?_⟩
  · rw [said_toggled, getLastD_map fun enabled => some (toString enabled), ← h.enabled hlive]
  · rw [said_toggled]
    exact isChain_map_toString h.alternate
  · rw [said_resized, getLastD_map fun size : UInt64 => some (toString size.toNat),
      ← h.backlogSize]
  · rw [said_dropped, List.length_map, hlosses]
  · rw [wrap_eq]
    exact ⟨_, filter_tells_actAll_of_bookkeeping (now.wrapActions_isBookkeeping route n s),
      now.journal_actAll _⟩
  · rw [build_eq]
    exact ⟨_, filter_tells_actAll_of_bookkeeping (now.buildActions_isBookkeeping strategies route),
      now.journal_actAll _⟩

/-- The tracer is turned on twice and off once. Two messages have no snapshot, and only the
first of them is to be reported. A new backlog size is accepted and another one refused. -/
theorem journal_tells_settings_sample :
    let e := ((initial .epoch).newFactory .fresh).1
    let made := (e.newTracer .default (some ⟨0⟩)).1
    let p := Processor.traced (interceptor ⟨0⟩ none ⟨⟨0⟩, "to", none, []⟩) (.leaf none [])
    let x := Exchange.new "X1" .opaqueValue
    let ops : List Operation := [
      .act (.perform ⟨0⟩ (.setEnabled true)), .act (.perform ⟨0⟩ (.setLossPolicy .log)),
      .process p x, .act (.perform ⟨0⟩ (.setEnabled true)),
      .act (.perform ⟨0⟩ (.setLossPolicy .count)), .process p x,
      .act (.perform ⟨0⟩ (.setBacklogSize 5)), .act (.perform ⟨0⟩ (.setBacklogSize (-1))),
      .act (.perform ⟨0⟩ (.setEnabled false))]
    let now := made.operateAll ops
    let entries := now.journal.reverse
    e.newTracer .default (some ⟨0⟩) = (made, .ok ⟨0⟩) ∧
    (∀ a ∈ made.actionsAll ops, a.Concerns ⟨0⟩) ∧
    (said .info "backlog tracer toggled" "enabled" entries = [some "true", some "false"] ∧
      (now.tracer ⟨0⟩).enabled = false) ∧
    (said .info "backlog size changed" "backlog_size" entries = [some "5"] ∧
      (now.tracer ⟨0⟩).backlogSize = 5) ∧
    ((said .warn "dropped backlog trace event" "error" entries).length = 1 ∧
      1 ≤ (now.tracer ⟨0⟩).captureFailures.toNat) := by
  intro e made p x ops now entries
  have hnew : e.newTracer .default (some ⟨0⟩) = (made, .ok ⟨0⟩) := rfl
  have hp : p.Within (Action.Concerns ⟨0⟩) := by
    refine ⟨fun x => rfl, trivial, fun s hs => ?_⟩
    cases hs
  have hsingle : ∀ a ∈ made.actionsAll ops, a.Concerns ⟨0⟩ := by
    refine actionsAll_within (fun a ha => ?_) ?_ made
    · cases a with
      | perform s c => exact ha.elim
      | enter i x => exact ha.elim
      | _ => trivial
    · simp only [ops, List.forall_mem_cons]
      exact ⟨rfl, rfl, hp, rfl, rfl, hp, rfl, rfl, rfl, List.forall_mem_nil _⟩
  obtain ⟨hrun, htells⟩ := journal_tells_settings hnew hsingle
  obtain ⟨⟨told, hjournal, htoggled, hresized, hdropped, -, -, -, -, henabled, -, hsize, -, -,
    hfailures⟩, -⟩ := htells _ List.prefix_rfl
  rw [← hrun] at hjournal henabled hsize hfailures
  have htold : entries = told := by
    have hnow : now.journal = told.reverse := hjournal.trans (List.append_nil _)
    exact List.reverse_eq_iff.mpr hnow
  rw [← htold] at htoggled hresized hdropped henabled hsize hfailures
  have htoggles : toggles entries = [true, false] := by decide +kernel
  have hsizes : backlogSizes entries = [5] := by decide +kernel
  have hlosses : (losses entries).length = 1 := by decide +kernel
  have hcounted : ((captures (made.history ⟨0⟩ (made.actionsAll ops))).filter
      Capture.countedLoss).length = 2 := by decide +kernel
  refine ⟨hnew, hsingle, ⟨?_, ?_⟩, ⟨?_, ?_⟩, ?_, ?_⟩
  · rw [htoggled, htoggles]
    rfl
  · rw [henabled (by decide +kernel), htoggles]
    rfl
  · rw [hresized, hsizes]
    rfl
  · rw [hsize, hsizes]
    rfl
  · rw [hdropped, List.length_map, hlosses]
  · rw [← hlosses]
    exact hfailures (by rw [hcounted]; decide)

end Engine

end TraceBacklog
