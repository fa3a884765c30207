import Mathlib.Data.List.Forall2
import Railroad.Proofs.Registry.Dispatch
import Railroad.Proofs.Registry.Inspection

/-!
# The audit trail of registries

What registries report while steps are carried out on them can be told from the steps and their
answers alone.

* `Step.reports`: the reports that belong to a step and its answer.
* `Step.Accounts`: how a step makes its reports. A dispatch makes one, and if it is the report that
  the value is drawn, the value is drawn after it. `accounts_run`: every step accounts for itself,
  whatever the drawings do.
* `TypeSystem.Logs`: reports are kept in a log that drawings leave alone. `log_runAll`: after a run
  the log has grown by the reports that belong to the steps.
* `log_is_audit_trail`: what the log of a run tells.
-/

namespace Railroad

open Registry (Event Recorder namesOutline)

variable {σ κ : Type}

/-! ## Logs -/

/-- A list to whose end each report is put, and which drawings leave alone. -/
structure TypeSystem.Logs [Recorder σ] (S : TypeSystem σ) (log : σ → List Event) : Prop where
  record_eq : ∀ event s, log (Recorder.record event s) = log s ++ [event]
  own_eq : ∀ t h value o s, log ((S.own t h value o).run s).2 = log s

/-- The list beside the state of the calls is a log. -/
theorem logs_logged (S : TypeSystem κ) : S.logged.Logs Prod.snd where
  record_eq _ _ := rfl
  own_eq t h value o s := by
    rw [own_logged]
    rfl

/-- The report says that a value is drawn. -/
def Registry.Event.delegates : Event → Bool
  | .delegating _ => true
  | _ => false

/-- The report says that a value is rejected. -/
def Registry.Event.rejects : Event → Bool
  | .rejectedType _ => true
  | .rejectedIdentity _ => true
  | _ => false

/-- The level and the wording of a report, as they are shown. -/
def Registry.Event.shown (event : Event) : String × String :=
  (event.level.name, event.message)

namespace Family

variable {S : TypeSystem σ}

/-- The answer is the drawing of a value. -/
def Reply.isDrawn : Reply → Bool
  | .drawn (.ok _) => true
  | _ => false

/-- The answer is that a value is refused. -/
def Reply.isRefused : Reply → Bool
  | .drawn (.error _) => true
  | _ => false

/-! ## The reports of one step -/

/-- The reports that belong to a step with the given answer. -/
def Step.reports : Step S → Reply → List Event
  | .register t _, _ => [.registering (S.name t)]
  | .draw v _, .drawn (.ok _) => [.delegating (S.name v.1)]
  | .draw v _, .drawn (.error _) => [.rejectedIdentity (S.identity v.1)]
  | .drawAs (t := t) _ _, .drawn (.ok _) => [.delegating (S.name t)]
  | .drawAs (t := t) _ _, .drawn (.error _) => [.rejectedType (S.name t)]
  | _, _ => []

/-- A value is dispatched: either this is reported under the name of the value's own type, and then
the type draws the value, or a rejection is reported and the value is refused. -/
def Dispatched [Recorder σ] (v : S.Erased) (o : Options) (rejection : Event) (s : σ) (reply : Reply)
    (s' : σ) : Prop :=
  (∃ h : S.Drawable v.1,
    let own := (S.own v.1 h v.2 o).run (Recorder.record (.delegating (S.name v.1)) s)
    reply = .drawn (.ok own.1) ∧ s' = own.2) ∨
  ∃ refusal, reply = .drawn (.error refusal) ∧ s' = Recorder.record rejection s

/-- **How a step makes its reports**, given the state before it, its answer, and the state after
it. Steps that neither register nor dispatch leave the state alone. -/
def Step.Accounts [Recorder σ] (s : σ) (reply : Reply) (s' : σ) : Step S → Prop
  | .register t _ => reply = .done ∧ s' = Recorder.record (.registering (S.name t)) s
  | .draw v o => Dispatched v o (.rejectedIdentity (S.identity v.1)) s reply s'
  | .drawAs (t := t) value o => Dispatched ⟨t, value⟩ o (.rejectedType (S.name t)) s reply s'
  | _ => reply.isDrawn = false ∧ reply.isRefused = false ∧ s' = s

section Accounts

variable [Recorder σ] {s s' : σ} {reply : Reply} {step : Step S}

theorem dispatched_of {v : S.Erased} {o : Options} {rejection : Event} {refusal : Refusal}
    {types : Finset S.Ty} {outcome : Except Refusal Diagram × σ}
    (hdrawn : v.1 ∈ types → ∃ h : S.Drawable v.1,
      let own := (S.own v.1 h v.2 o).run (Recorder.record (.delegating (S.name v.1)) s)
      outcome = (.ok own.1, own.2))
    (hrefused : v.1 ∉ types → outcome = (.error refusal, Recorder.record rejection s)) :
    Dispatched v o rejection s (.drawn outcome.1) outcome.2 := by
  by_cases ht : v.1 ∈ types
  · obtain ⟨h, houtcome⟩ := hdrawn ht
    rw [houtcome]
    exact .inl ⟨h, rfl, rfl⟩
  · rw [hrefused ht]
    exact .inr ⟨refusal, rfl, rfl⟩

/-- **Every step accounts for itself**, whatever the drawings do. -/
theorem accounts_run {name : String} {family : Family S} (hr : (get name family).Sound)
    (step : Step S) (s : σ) :
    step.Accounts s ((run name step family).run s).1.1 ((run name step family).run s).2 := by
  have hd := hr.dispatchesAs
  cases step with
  | register t h => exact ⟨rfl, rfl⟩
  | draw v o =>
    exact dispatched_of (fun ht => (hd.drawn v.1 ht).imp fun h hown => (hown v.2 o s).1)
      fun ht => (hd.refused v.1 ht v.2 o s).1
  | @drawAs t value o =>
    exact dispatched_of (v := ⟨t, value⟩)
      (fun ht => (hd.drawn t ht).imp fun h hown => (hown value o s).2)
      fun ht => (hd.refused t ht value o s).2
  | reset | contains | supports | isEmpty | inspect | copyTo => exact ⟨rfl, rfl, rfl⟩

/-- The log grows by the reports that belong to the step. -/
theorem Step.Accounts.log_eq {log : σ → List Event} (hlog : S.Logs log)
    (h : step.Accounts s reply s') : log s' = log s ++ step.reports reply := by
  cases step with
  | register t ht =>
    obtain ⟨-, rfl⟩ := h
    exact hlog.record_eq _ _
  | draw | drawAs =>
    rcases h with ⟨hd, rfl, rfl⟩ | ⟨refusal, rfl, rfl⟩
    · rw [hlog.own_eq, hlog.record_eq]
      rfl
    · exact hlog.record_eq _ _
  | reset | contains | supports | isEmpty | inspect | copyTo =>
    obtain ⟨-, -, rfl⟩ := h
    exact (List.append_nil _).symm

/-- Values are reported to be drawn as often as they are drawn, and to be rejected as often as they
are refused. -/
theorem Step.Accounts.countP_reports (h : step.Accounts s reply s') :
    (step.reports reply).countP Event.delegates = [reply].countP Reply.isDrawn ∧
    (step.reports reply).countP Event.rejects = [reply].countP Reply.isRefused := by
  cases step with
  | register =>
    obtain ⟨rfl, -⟩ := h
    exact ⟨rfl, rfl⟩
  | draw | drawAs =>
    rcases h with ⟨hd, rfl, -⟩ | ⟨refusal, rfl, -⟩ <;> exact ⟨rfl, rfl⟩
  | reset | contains | supports | isEmpty | inspect | copyTo =>
    obtain ⟨hdrawn, hrefused, -⟩ := h
    rw [List.countP_singleton, List.countP_singleton, hdrawn, hrefused]
    exact ⟨rfl, rfl⟩

end Accounts

/-! ## The reports of a run -/

/-- The reports that belong to steps with the given answers, each with the name of the registry that
makes it. -/
def trail (steps : List (String × Step S)) (replies : List Reply) : List (String × Event) :=
  (steps.zip replies).flatMap fun e => (e.1.2.reports e.2).map fun event => (e.1.1, event)

theorem trail_cons (e : String × Step S) (steps : List (String × Step S)) (reply : Reply)
    (replies : List Reply) :
    trail (e :: steps) (reply :: replies) =
      (e.2.reports reply).map (fun event => (e.1, event)) ++ trail steps replies := rfl

/-- The reports of a run are those of its first step and those of the others. -/
theorem map_snd_trail_cons (e : String × Step S) (steps : List (String × Step S)) (reply : Reply)
    (replies : List Reply) :
    (trail (e :: steps) (reply :: replies)).map Prod.snd =
      e.2.reports reply ++ (trail steps replies).map Prod.snd := by
  simp [trail_cons]

theorem run_runAll_cons [Recorder σ] (e : String × Step S) (rest : List (String × Step S))
    (family : Family S) (s : σ) :
    (runAll (e :: rest) family).run s =
      let first := (run e.1 e.2 family).run s
      let later := (runAll rest first.1.2).run first.2
      ((first.1.1 :: later.1.1, later.1.2), later.2) := rfl

theorem sound_run [Recorder σ] {family : Family S} (h : ∀ n, (get n family).Sound) (name : String)
    (step : Step S) (s : σ) (n : String) :
    (get n ((run name step family).run s).1.2).Sound := by
  show (view ((run name step family).run s).1.2 n).Sound
  rw [view_run]
  exact sound_effect h name step n

/-- The answers are those of steps that account for themselves, one for each step. -/
theorem accounts_runAll [Recorder σ] (steps : List (String × Step S)) {family : Family S}
    (h : ∀ n, (get n family).Sound) (s : σ) :
    List.Forall₂ (fun e reply => ∃ s s', e.2.Accounts s reply s') steps
      ((runAll steps family).run s).1.1 := by
  induction steps generalizing family s with
  | nil => exact .nil
  | cons e rest ih =>
    exact .cons ⟨_, _, accounts_run (h e.1) e.2 s⟩ (ih (sound_run h e.1 e.2 s) _)

/-- **The log of a run** grows by the reports that belong to its steps. -/
theorem log_runAll [Recorder σ] {log : σ → List Event} (hlog : S.Logs log)
    (steps : List (String × Step S)) {family : Family S} (h : ∀ n, (get n family).Sound) (s : σ) :
    log ((runAll steps family).run s).2 =
      log s ++ (trail steps ((runAll steps family).run s).1.1).map Prod.snd := by
  induction steps generalizing family s with
  | nil => exact (List.append_nil _).symm
  | cons e rest ih =>
    have hfirst := (accounts_run (h e.1) e.2 s).log_eq hlog
    have hrest := ih (sound_run h e.1 e.2 s) ((run e.1 e.2 family).run s).2
    rw [run_runAll_cons]
    dsimp only
    rw [hrest, hfirst, map_snd_trail_cons, List.append_assoc]

/-- What is counted in the reports and in the answer of every step is counted in those of a run. -/
theorem countP_trail {p : Event → Bool} {q : Reply → Bool} {steps : List (String × Step S)}
    {replies : List Reply}
    (h : List.Forall₂ (fun e reply => (e.2.reports reply).countP p = [reply].countP q) steps
      replies) :
    ((trail steps replies).map Prod.snd).countP p = replies.countP q := by
  induction h with
  | nil => rfl
  | @cons e reply steps replies hfirst _ ih =>
    have hsplit : ([reply] ++ replies).countP q = [reply].countP q + replies.countP q :=
      List.countP_append
    rw [map_snd_trail_cons, List.countP_append, hfirst, ih, ← hsplit]
    rfl

/-! ## Registrations -/

theorem registering_mem_reports_iff (step : Step S) (reply : Reply) (n : String) :
    .registering n ∈ step.reports reply ↔ ∃ t h, step = .register t h ∧ S.name t = n := by
  cases step with
  | register t h =>
    refine ⟨fun hn => ⟨t, h, rfl, ?_⟩, ?_⟩
    · exact (Event.registering.inj (List.mem_singleton.mp hn)).symm
    · rintro ⟨u, hu, hstep, rfl⟩
      cases hstep
      exact List.mem_singleton_self _
  | draw | drawAs =>
    rcases reply with _ | _ | _ | (_ | _) <;> simp [Step.reports]
  | reset | contains | supports | isEmpty | inspect | copyTo => simp [Step.reports]

/-- The registrations that are reported are those that are carried out. -/
theorem registering_mem_trail_iff {steps : List (String × Step S)} {replies : List Reply}
    (hlength : steps.length = replies.length) (name n : String) :
    (name, .registering n) ∈ trail steps replies ↔
      ∃ t h, (name, .register t h) ∈ steps ∧ S.name t = n := by
  induction steps generalizing replies with
  | nil => simp [trail]
  | cons e rest ih =>
    cases replies with
    | nil => cases hlength
    | cons reply replies =>
      have hfirst : (name, .registering n) ∈ (e.2.reports reply).map (fun event => (e.1, event)) ↔
          e.1 = name ∧ .registering n ∈ e.2.reports reply := by
        simp [and_comm]
      rw [trail_cons, List.mem_append, ih (Nat.succ.inj hlength), hfirst,
        registering_mem_reports_iff]
      constructor
      · rintro (⟨rfl, t, h, hstep, rfl⟩ | ⟨t, h, hmem, rfl⟩)
        · exact ⟨t, h, List.mem_cons.mpr (.inl (Prod.ext rfl hstep.symm)), rfl⟩
        · exact ⟨t, h, List.mem_cons_of_mem e hmem, rfl⟩
      · rintro ⟨t, h, hmem, rfl⟩
        rcases List.mem_cons.mp hmem with rfl | hmem
        · exact .inl ⟨rfl, t, h, rfl, rfl⟩
        · exact .inr ⟨t, h, hmem, rfl⟩

/-- The registry under `name` is neither reset nor replaced by a copy. -/
def OnlyGrows (name : String) (steps : List (String × Step S)) : Prop :=
  ∀ e ∈ steps, e ≠ (name, .reset) ∧ e.2 ≠ .copyTo name

theorem mem_onTypes_iff {name : String} {e : String × Step S}
    (hreset : e ≠ (name, .reset)) (hcopy : e.2 ≠ .copyTo name) (types : String → Finset S.Ty)
    (u : S.Ty) :
    u ∈ e.2.onTypes e.1 types name ↔ u ∈ types name ∨ ∃ h, e = (name, .register u h) := by
  obtain ⟨other, step⟩ := e
  cases step with
  | reset =>
    have hother : name ≠ other := by
      rintro rfl
      exact hreset rfl
    simp [Step.onTypes, Function.update_of_ne hother]
  | register t h =>
    by_cases hname : name = other
    · subst hname
      simp only [Step.onTypes, Function.update_self, Finset.mem_insert, Prod.mk.injEq, true_and,
        Step.register.injEq]
      constructor
      · rintro (rfl | hu)
        · exact .inr ⟨h, rfl⟩
        · exact .inl hu
      · rintro (hu | ⟨_, rfl⟩)
        · exact .inr hu
        · exact .inl rfl
    · simp [Step.onTypes, Function.update_of_ne hname, Ne.symm hname]
  | copyTo target =>
    have htarget : name ≠ target := by
      rintro rfl
      exact hcopy rfl
    simp [Step.onTypes, Function.update_of_ne htarget]
  | contains | supports | isEmpty | inspect | draw | drawAs => simp [Step.onTypes]

/-- **A registry that only grows** holds the types of all its registrations. -/
theorem OnlyGrows.mem_typesAfter_iff {name : String} {steps : List (String × Step S)}
    (h : OnlyGrows name steps) (types : String → Finset S.Ty) (u : S.Ty) :
    u ∈ typesAfter steps types name ↔
      u ∈ types name ∨ ∃ hd, (name, .register u hd) ∈ steps := by
  induction steps generalizing types with
  | nil => simp [typesAfter]
  | cons e rest ih =>
    obtain ⟨hreset, hcopy⟩ := h e List.mem_cons_self
    have hrest : OnlyGrows name rest := fun e he => h e (List.mem_cons_of_mem _ he)
    show u ∈ typesAfter rest (e.2.onTypes e.1 types) name ↔ _
    rw [ih hrest, mem_onTypes_iff hreset hcopy, or_assoc]
    refine or_congr Iff.rfl ?_
    rw [← exists_or]
    exact exists_congr fun hd => (List.mem_cons.trans (or_congr eq_comm Iff.rfl)).symm

/-! ## The audit trail -/

section AuditTrail

variable [Recorder σ]

/-- **A registry that only grows** notes the names of all its registrations. -/
theorem OnlyGrows.mem_typeNames_iff {name : String} {steps : List (String × Step S)}
    (h : OnlyGrows name steps) (start : σ) (n : String) :
    n ∈ (get name (after steps start)).typeNames ↔
      ∃ t hd, (name, .register t hd) ∈ steps ∧ S.name t = n := by
  have hregistered (t : S.Ty) : t ∈ registered steps name ↔ ∃ hd, (name, .register t hd) ∈ steps :=
    (h.mem_typesAfter_iff _ t).trans (or_iff_right (Finset.notMem_empty t))
  have hnames : n ∈ (get name (after steps start)).typeNames ↔
      ∃ t ∈ registered steps name, S.name t = n := by
    rw [← Multiset.mem_coe, (sound_after steps start name).coe_typeNames, Multiset.mem_map,
      types_after]
    rfl
  rw [hnames]
  constructor
  · rintro ⟨t, ht, hn⟩
    obtain ⟨hd, hstep⟩ := (hregistered t).mp ht
    exact ⟨t, hd, hstep, hn⟩
  · rintro ⟨t, hd, hstep, hn⟩
    exact ⟨t, (hregistered t).mpr ⟨hd, hstep⟩, hn⟩

/-- **The log is an audit trail.** Every step, in whatever state and whatever the drawings do, makes
its reports as it should: a registration one, a dispatch one before the value is drawn or in place
of drawing it, and any other step none. So if the reports are kept in a log, it can be told from the
steps of a run and their answers what has been added to the log, as many drawings and rejections are
reported as values were drawn and refused, and a registry that is neither reset nor replaced shows
the names that its registrations have reported. -/
theorem log_is_audit_trail (steps : List (String × Step S)) (start : σ) :
    let family := after steps start
    let outcome := (runAll steps []).run start
    let replies := outcome.1.1
    let events := (trail steps replies).map Prod.snd
    -- every step
    (∀ name (step : Step S) s,
      step.Accounts s ((run name step family).run s).1.1 ((run name step family).run s).2) ∧
    -- the wording of the reports
    (∀ n, (Event.registering n).shown = ("TRACE", "registering railroadable type") ∧
      (Event.delegating n).shown = ("TRACE", "delegating create_railroad") ∧
      (Event.rejectedType n).shown = ("DEBUG", "rejected value without railroad capability") ∧
      (Event.rejectedIdentity n).shown =
        ("DEBUG", "rejected value without railroad capability")) ∧
    -- a registry that only grows
    (∀ name, OnlyGrows name steps → ∃ names, (get name family).outline = namesOutline names ∧
      ∀ n, n ∈ names ↔ (name, .registering n) ∈ trail steps replies) ∧
    -- how often values are drawn and refused
    steps.length = replies.length ∧
    events.countP Event.delegates = replies.countP Reply.isDrawn ∧
    events.countP Event.rejects = replies.countP Reply.isRefused ∧
    -- the log of each step and of the whole run
    ∀ log : σ → List Event, S.Logs log →
      (∀ name (step : Step S) s, log ((run name step family).run s).2 =
        log s ++ step.reports ((run name step family).run s).1.1) ∧
      log outcome.2 = log start ++ events := by
  intro family outcome replies events
  have hsound (name : String) : (get name family).Sound := sound_after steps start name
  have hstart (name : String) : (get name ([] : Family S)).Sound := Registry.sound_empty
  have haccounts := accounts_runAll steps hstart start
  refine ⟨fun name step s => accounts_run (hsound name) step s, fun n => ⟨rfl, rfl, rfl, rfl⟩,
    fun name hgrows => ?_, haccounts.length_eq, ?_, ?_, fun log hlog => ⟨fun name step s => ?_, ?_⟩⟩
  · refine ⟨_, Registry.outline_eq _, fun n => ?_⟩
    rw [(Text.sort_perm _).mem_iff, hgrows.mem_typeNames_iff,
      registering_mem_trail_iff haccounts.length_eq]
  · exact countP_trail (haccounts.imp fun e reply ⟨_, _, h⟩ => h.countP_reports.1)
  · exact countP_trail (haccounts.imp fun e reply ⟨_, _, h⟩ => h.countP_reports.2)
  · exact (accounts_run (hsound name) step s).log_eq hlog
  · exact log_runAll hlog steps hstart start

end AuditTrail

/-- A value of a type that cannot be drawn. -/
def plainValue : countingTypes.Erased := ⟨NamedType.plain "u32", ()⟩

/-- A type registered twice, drawings of its values, and rejections. -/
def auditedSteps : List (String × Step countingTypes) :=
  [("main", .register countingType drawable_countingType),
    ("main", .draw ⟨countingType, countingValue⟩ .empty),
    ("main", .register countingType drawable_countingType),
    ("main", .drawAs countingValue .empty), ("main", .draw plainValue .empty),
    ("other", .drawAs countingValue .empty)]

theorem log_is_audit_trail_auditedSteps :
    let outcome := (runAll auditedSteps []).run (0, [])
    OnlyGrows "main" auditedSteps ∧ countingTypes.Logs Prod.snd ∧
    outcome.2.2 = [.registering "Counting", .delegating "Counting", .registering "Counting",
      .delegating "Counting", .rejectedIdentity "TypeId(..)", .rejectedType "Counting"] ∧
    (∃ names, (get "main" (after auditedSteps (0, []))).outline = namesOutline names ∧
      "Counting" ∈ names) ∧
    outcome.1.1.countP Reply.isDrawn = 2 ∧ outcome.1.1.countP Reply.isRefused = 2 := by
  intro outcome
  have hgrows : OnlyGrows "main" auditedSteps := by simp [OnlyGrows, auditedSteps]
  have hlogs : countingTypes.Logs Prod.snd := logs_logged _
  obtain ⟨-, -, hnames, -, hdrawn, hrefused, hlog⟩ := log_is_audit_trail auditedSteps (0, [])
  obtain ⟨names, houtline, hmem⟩ := hnames "main" hgrows
  have hlisted : "Counting" ∈ names := (hmem "Counting").mpr List.mem_cons_self
  exact ⟨hgrows, hlogs, (hlog Prod.snd hlogs).2, ⟨names, houtline, hlisted⟩, hdrawn.symm,
    hrefused.symm⟩

end Family

end Railroad
