import Btcbot.Stage4Cancel

/-!
# The gates of the stage 4 execution

Under the kill switch or the freeze the service only cancels, and with freeze all it
does nothing. The cancels are carried out one after the other until one raises.
-/
namespace Stage4Gate

open ExchangeErrors ExecutionWrapper Stage4Store Stage4Execute Stage4Cancel Effects

section Calls

/-- The calls made since, none of them a submission. -/
def NoSubmits (before after : World) : Prop :=
  ∃ made, after.calls = before.calls ++ made ∧
    ∀ entry ∈ made, ∀ replaces c e answer, entry.call ≠ .submit replaces c e answer

theorem NoSubmits.refl (w : World) : NoSubmits w w :=
  ⟨[], (List.append_nil _).symm, List.forall_mem_nil _⟩

theorem NoSubmits.trans {a b c : World} (hab : NoSubmits a b) (hbc : NoSubmits b c) :
    NoSubmits a c := by
  obtain ⟨made, hmade, hno⟩ := hab
  obtain ⟨more, hmore, hnone⟩ := hbc
  refine ⟨made ++ more, by rw [hmore, hmade, List.append_assoc], ?_⟩
  intro entry hentry
  rcases List.mem_append.mp hentry with h | h
  · exact hno entry h
  · exact hnone entry h

instance : IsPreorder World NoSubmits where
  refl := NoSubmits.refl
  trans _ _ _ hab hbc := hab.trans hbc

variable {env : Env} {settings : Settings}

theorem noSubmits_executeCancelAction (action : LifecycleAction) (live : Bool) :
    Keeps NoSubmits (executeCancelAction env settings action live) := by
  refine executeCancelAction_keeps (fun _ _ w _ _ _ => NoSubmits.refl w)
    fun w exchangeOrderId answer => ⟨_, rfl, fun entry hentry => ?_⟩
  cases List.mem_singleton.mp hentry
  exact nofun

end Calls

section Sequence

/-- How a program ends, its value apart. -/
def outcome {α : Type} (m : Exec α) (w : World) : Option Exc × World :=
  match m w with
  | .ok _ t => (none, t)
  | .error exc t => (some exc, t)

/-- The exchange calls that a program makes. -/
def made {α : Type} (m : Exec α) (w : World) : List Entry :=
  (outcome m w).2.calls.drop w.calls.length

theorem made_eq {α : Type} {m : Exec α} {w : World} {entries : List Entry}
    (h : (outcome m w).2.calls = w.calls ++ entries) : made m w = entries := by
  rw [made, h, List.drop_left]

/-- How a program ends as a relation of its results. -/
theorem outcome_ends {α : Type} {m : Exec α} {w : World} {R : Option Exc → World → Prop}
    (h : Ends m w (fun _ => R none) (fun exc => R (some exc))) :
    R (outcome m w).1 (outcome m w).2 := by
  unfold Ends at h
  unfold outcome
  cases hm : m w with
  | ok a t => simpa [hm] using h
  | error exc t => simpa [hm] using h

theorem ends_outcome {α : Type} {m : Exec α} {R : World → World → Prop} (h : Keeps R m)
    (w : World) : R w (outcome m w).2 :=
  @outcome_ends α m w (fun _ => R w) (h w)

variable (env : Env) (settings : Settings) (live : Bool)

/-- Cancels one after the other, until one raises. -/
def runCancels : List LifecycleAction → World → Option Exc × World
  | [], w => (none, w)
  | action :: actions, w =>
    match outcome (executeCancelAction env settings action live) w with
    | (none, t) => runCancels actions t
    | raised => raised

/-- Each of the cancels is carried out once, in this order; one that raises is the last. -/
inductive Carried : List LifecycleAction → World → Option Exc → World → Prop
  | none (w : World) : Carried [] w Option.none w
  | next {action : LifecycleAction} {actions : List LifecycleAction} {w t u : World}
      {came : CancelOutcome} {raised : Option Exc}
      (cancels : Cancels env settings action live w came Option.none t)
      (rest : Carried actions t raised u) : Carried (action :: actions) w raised u
  | raised {action : LifecycleAction} {w t : World} {came : CancelOutcome} {exc : Exc}
      (cancels : Cancels env settings action live w came (some exc) t) :
      Carried [action] w (some exc) t

theorem runCancels_append (first second : List LifecycleAction) (w : World) :
    runCancels env settings live (first ++ second) w =
      match runCancels env settings live first w with
      | (none, t) => runCancels env settings live second t
      | raised => raised := by
  induction first generalizing w with
  | nil => rfl
  | cons action first ih =>
    rw [List.cons_append, runCancels, runCancels]
    rcases outcome (executeCancelAction env settings action live) w with ⟨_ | exc, t⟩
    · exact ih t
    · rfl

theorem outcome_bind {α β : Type} (m : Exec α) (f : α → Exec β) (w : World) :
    outcome (m >>= f) w =
      match m w with
      | .ok a t => outcome (f a) t
      | .error exc t => (some exc, t) := by
  simp only [outcome, bind, EStateM.bind]
  cases m w <;> rfl

/-- A loop over cancels ends as the cancels one after the other, whatever it counts. -/
theorem outcome_cancels {β : Type} (step : β → LifecycleAction → Exec β)
    (actions : List LifecycleAction)
    (hstep : ∀ action ∈ actions, ∀ b w, outcome (step b action) w =
      outcome (executeCancelAction env settings action live) w) (b : β) (w : World) :
    outcome (actions.foldlM step b) w = runCancels env settings live actions w := by
  induction actions generalizing b w with
  | nil => rfl
  | cons action actions ih =>
    have hfirst := hstep action List.mem_cons_self b w
    rw [List.foldlM_cons, outcome_bind, runCancels, ← hfirst]
    unfold outcome
    cases step b action w with
    | ok b' t => exact ih (fun a ha => hstep a (List.mem_cons_of_mem _ ha)) b' t
    | error exc t => rfl

theorem outcome_map {α β : Type} (m : Exec α) (f : α → β) (w : World) :
    outcome (m >>= fun a => pure (f a)) w = outcome m w := by
  rw [outcome_bind]
  unfold outcome
  cases m w <;> rfl

theorem outcome_cancelAll (actions : List LifecycleAction) (w : World) :
    outcome (cancelAll env settings actions live) w = runCancels env settings live actions w :=
  outcome_cancels env settings live _ actions (fun _ _ _ _ => outcome_map _ _ _) 0 w

theorem outcome_groups (groups : List ReplaceGroup) (totals : Totals) (w : World) :
    outcome (groups.foldlM (executeGroup env settings true live) totals) w =
      runCancels env settings live (groups.flatMap ReplaceGroup.cancelActions) w := by
  induction groups generalizing totals w with
  | nil => rfl
  | cons group groups ih =>
    have hgroup : outcome (executeGroup env settings true live totals group) w =
        runCancels env settings live group.cancelActions w := by
      rw [← outcome_cancelAll]
      exact outcome_map _ _ _
    rw [List.foldlM_cons, outcome_bind, List.flatMap_cons, runCancels_append, ← hgroup]
    unfold outcome
    cases executeGroup env settings true live totals group w with
    | ok totals' t => exact ih totals' t
    | error exc t => rfl

theorem runCancels_noSubmits (actions : List LifecycleAction) (w : World) :
    NoSubmits w (runCancels env settings live actions w).2 := by
  induction actions generalizing w with
  | nil => exact NoSubmits.refl w
  | cons action actions ih =>
    have hfirst := ends_outcome (@noSubmits_executeCancelAction env settings action live) w
    rw [runCancels]
    rcases houtcome : outcome (executeCancelAction env settings action live) w with ⟨_ | exc, t⟩
    · rw [houtcome] at hfirst
      exact hfirst.trans (ih t)
    · rw [houtcome] at hfirst
      exact hfirst

theorem outcome_cancel (action : LifecycleAction) (w : World) :
    ∃ came, Cancels env settings action live w came
      (outcome (executeCancelAction env settings action live) w).1
      (outcome (executeCancelAction env settings action live) w).2 :=
  @outcome_ends _ _ w (fun raised t => ∃ came, Cancels env settings action live w came raised t)
    executeCancelAction_ends

/-- The first of the cancels are carried out, all of them unless one raises. -/
theorem runCancels_carried (actions : List LifecycleAction) (w : World) :
    ∃ done, done.IsPrefix actions ∧
      Carried env settings live done w (runCancels env settings live actions w).1
        (runCancels env settings live actions w).2 ∧
      ((runCancels env settings live actions w).1 = none → done = actions) := by
  induction actions generalizing w with
  | nil => exact ⟨[], List.prefix_rfl, .none w, fun _ => rfl⟩
  | cons action actions ih =>
    obtain ⟨came, hfirst⟩ := outcome_cancel env settings live action w
    rw [runCancels]
    rcases houtcome : outcome (executeCancelAction env settings action live) w with ⟨_ | exc, t⟩
    · rw [houtcome] at hfirst
      obtain ⟨done, hprefix, hcarried, hall⟩ := ih t
      exact ⟨action :: done, List.cons_prefix_cons.mpr ⟨rfl, hprefix⟩, .next hfirst hcarried,
        fun hnone => congrArg _ (hall hnone)⟩
    · rw [houtcome] at hfirst
      refine ⟨[action], ?_, .raised hfirst, fun hnone => ?_⟩
      · exact List.cons_prefix_cons.mpr ⟨rfl, List.nil_prefix⟩
      · cases hnone

end Sequence

section Partition

/-- A list falls apart into the parts of its keys. -/
theorem flatMap_filter_perm {α κ : Type} [DecidableEq κ] (key : α → κ) (keys : List κ) :
    ∀ l : List α, keys.Nodup → (∀ a ∈ l, key a ∈ keys) →
      (keys.flatMap fun k => l.filter fun a => key a = k).Perm l := by
  induction keys with
  | nil =>
    intro l _ hcover
    have hnil : l = [] := List.eq_nil_iff_forall_not_mem.mpr fun a ha => nomatch hcover a ha
    rw [hnil]
    exact .refl _
  | cons k keys ih =>
    intro l hnodup hcover
    obtain ⟨hnew, hrest⟩ := List.nodup_cons.mp hnodup
    have hsplit := List.filter_append_perm (fun a => decide (key a = k)) l
    have hothers : (keys.flatMap fun k' => l.filter fun a => key a = k') =
        keys.flatMap fun k' => (l.filter fun a => !decide (key a = k)).filter fun a =>
          key a = k' := by
      refine List.flatMap_congr fun k' hk' => ?_
      rw [List.filter_filter]
      refine List.filter_congr fun a _ => ?_
      by_cases hkey : key a = k'
      · have hne : k' ≠ k := fun h => hnew (h ▸ hk')
        simp [hkey, hne]
      · simp [hkey]
    rw [List.flatMap_cons, hothers]
    refine (List.Perm.append_left _ (ih _ hrest ?_)).trans hsplit
    intro a ha
    obtain ⟨hin, hne⟩ := List.mem_filter.mp ha
    rcases List.mem_cons.mp (hcover a hin) with h | h
    · simp [h] at hne
    · exact h

theorem groupKeys_nodup (actions : List LifecycleAction) : (groupKeys actions).Nodup :=
  KeyedTable.keys_ofEntries_nodup _

theorem mem_groupKeys {actions : List LifecycleAction} {action : LifecycleAction}
    (h : action ∈ actions) : groupKey action ∈ groupKeys actions := by
  rw [groupKeys, KeyedTable.mem_keys_ofEntries, KeyedTable.keys, List.map_map]
  exact List.mem_map_of_mem h

def isCancel (action : LifecycleAction) : Bool := action.actionType = .cancel

/-- The cancels of a group, none where there is no group. -/
def groupCancels (group : Option ReplaceGroup) : List LifecycleAction :=
  (group.map ReplaceGroup.cancelActions).getD []

/-- A bucket keeps its cancels, in its plain actions or in its group. -/
theorem bucket_cancels (actions : List LifecycleAction) (key : String × String) :
    (((bucketOf actions key).regular key).filter isCancel ++
        groupCancels ((bucketOf actions key).group key)).Perm
      ((actions.filter fun action => groupKey action = key).filter isCancel) := by
  generalize hown : (actions.filter fun action => groupKey action = key) = own
  have hbucket : bucketOf actions key =
      ⟨own.filter isReplaceCancel, own.filter isReplaceSubmit,
        own.filter fun action => ¬ isReplaceCancel action ∧ ¬ isReplaceSubmit action⟩ := by
    rw [← hown]
    rfl
  have hother : (own.filter fun action =>
      ¬ isReplaceCancel action ∧ ¬ isReplaceSubmit action).filter isCancel =
        (own.filter isCancel).filter fun action => !isReplaceCancel action := by
    rw [List.filter_filter, List.filter_filter]
    refine List.filter_congr fun action _ => ?_
    cases haction : action.actionType <;>
      simp [isCancel, isReplaceCancel, isReplaceSubmit, haction]
  have hcancel : (own.filter isReplaceCancel) = (own.filter isCancel).filter isReplaceCancel := by
    rw [List.filter_filter]
    refine List.filter_congr fun action _ => ?_
    cases haction : action.actionType <;> simp [isCancel, isReplaceCancel, haction]
  have hcancels : (own.filter isReplaceCancel).filter isCancel = own.filter isReplaceCancel := by
    rw [List.filter_filter]
    refine List.filter_congr fun action _ => ?_
    cases haction : action.actionType <;> simp [isCancel, isReplaceCancel, haction]
  have hsubmits : (own.filter isReplaceSubmit).filter isCancel = [] := by
    rw [List.filter_filter, List.filter_eq_nil_iff]
    intro action _
    cases haction : action.actionType <;> simp [isCancel, isReplaceSubmit, haction]
  have hwhole : ((own.filter isCancel).filter (fun action => !isReplaceCancel action) ++
      own.filter isReplaceCancel).Perm (own.filter isCancel) := by
    rw [hcancel]
    exact List.perm_append_comm.trans (List.filter_append_perm isReplaceCancel _)
  rw [Bucket.regular, List.filter_append]
  cases hgroup : (bucketOf actions key).group key with
  | none =>
    simp only [hbucket, List.filter_append, hother, hcancels, hsubmits, groupCancels,
      Option.map_none, Option.getD_none, List.append_nil]
    exact hwhole
  | some group =>
    have hsame : group.cancelActions = own.filter isReplaceCancel := by
      rw [hbucket] at hgroup
      unfold Bucket.group at hgroup
      split at hgroup
      · cases hgroup
        rfl
      · cases hgroup
    simp only [hbucket, hother, groupCancels, Option.map_some, Option.getD_some, List.filter_nil,
      List.append_nil, hsame]
    exact hwhole

/-- Taking the replace groups apart loses no cancel and repeats none. -/
theorem extracted_cancels (actions : List LifecycleAction) :
    ((extractReplaceGroups actions).1.filter isCancel ++
        (extractReplaceGroups actions).2.flatMap ReplaceGroup.cancelActions).Perm
      (actions.filter isCancel) := by
  have hgroups : (extractReplaceGroups actions).2.flatMap ReplaceGroup.cancelActions =
      (groupKeys actions).flatMap fun key => groupCancels ((bucketOf actions key).group key) := by
    show ((groupKeys actions).filterMap _).flatMap _ = _
    induction groupKeys actions with
    | nil => rfl
    | cons key keys ih =>
      rw [List.flatMap_cons, ← ih, List.filterMap_cons]
      cases (bucketOf actions key).group key <;> rfl
  have hregular : (extractReplaceGroups actions).1.filter isCancel =
      (groupKeys actions).flatMap fun key =>
        ((bucketOf actions key).regular key).filter isCancel := List.filter_flatMap
  rw [hgroups, hregular]
  refine (List.flatMap_append_perm _ _ _).trans ?_
  refine (List.Perm.flatMap_left _ fun key _ => bucket_cancels actions key).trans ?_
  rw [← List.filter_flatMap]
  exact (flatMap_filter_perm groupKey (groupKeys actions) actions (groupKeys_nodup actions)
    fun _ => mem_groupKeys).filter isCancel

end Partition

section Gated

variable {settings : Settings} {actions : List LifecycleAction}

theorem extracted_nonempty {group : ReplaceGroup}
    (h : group ∈ (extractReplaceGroups actions).2) : group.cancelActions ≠ [] := by
  obtain ⟨key, -, hgroup⟩ := List.mem_filterMap.mp h
  unfold Bucket.group at hgroup
  split at hgroup
  · next hcancel _ =>
    cases hgroup
    dsimp only
    rw [hcancel]
    exact List.cons_ne_nil _ _
  · cases hgroup

theorem gateActions_frozen (left : List LifecycleAction × List ReplaceGroup) :
    gateActions true left = ([], []) := by
  simp [gateActions, allowedByGate]

theorem gateActions_open {left : List LifecycleAction × List ReplaceGroup}
    (h : ∀ group ∈ left.2, group.cancelActions ≠ []) :
    gateActions false left = (left.1.filter isCancel, left.2) := by
  refine Prod.ext (List.filter_congr fun action _ => ?_) (List.filter_eq_self.mpr fun g hg => ?_)
  · simp [allowedByGate, isCancel]
  · simp [h g hg]

/-- One gate or both, with freeze all nothing is left. -/
theorem gatedActions_frozen {freezeActive : Bool}
    (hgate : settings.killSwitchActive = true ∨ freezeActive = true)
    (hall : settings.killSwitchFreezeAll = true) :
    gatedActions settings freezeActive actions = ([], []) := by
  unfold gatedActions
  dsimp only
  rw [hall]
  cases freezeActive with
  | true => exact gateActions_frozen _
  | false =>
    rw [if_pos (hgate.resolve_right Bool.false_ne_true)]
    exact gateActions_frozen _

/-- One gate or both, the cancels are left. -/
theorem gatedActions_open {freezeActive : Bool}
    (hgate : settings.killSwitchActive = true ∨ freezeActive = true)
    (hall : settings.killSwitchFreezeAll = false) :
    gatedActions settings freezeActive actions =
      ((extractReplaceGroups actions).1.filter isCancel, (extractReplaceGroups actions).2) := by
  have hone := @gateActions_open (extractReplaceGroups actions) fun _ => extracted_nonempty
  have htwo := @gateActions_open
    ((extractReplaceGroups actions).1.filter isCancel, (extractReplaceGroups actions).2)
    fun _ => extracted_nonempty
  simp only [List.filter_filter, Bool.and_self] at htwo
  unfold gatedActions
  dsimp only
  rw [hall]
  cases freezeActive with
  | true =>
    by_cases hkill : settings.killSwitchActive = true
    · rw [if_pos hkill, if_pos rfl, hone, htwo]
    · rw [if_neg hkill, if_pos rfl, hone]
  | false =>
    rw [if_pos (hgate.resolve_right Bool.false_ne_true), if_neg Bool.false_ne_true, hone]

/-- Live trading without its acknowledgement. -/
def Unarmed (settings : Settings) : Prop :=
  settings.liveTrading = true ∧ ¬ settings.isLiveTradingEnabled = true

variable (env : Env)

/-- The cancels of a gated call, in the order they are carried out. -/
def plannedCancels (settings : Settings) (freezeActive : Bool) (actions : List LifecycleAction) :
    List LifecycleAction :=
  (gatedActions settings freezeActive actions).1 ++
    (gatedActions settings freezeActive actions).2.flatMap ReplaceGroup.cancelActions

def liveMode (settings : Settings) : Bool := settings.isLiveTradingEnabled && !settings.dryRun

theorem gatedActions_cancels {freezeActive : Bool}
    (hgate : settings.killSwitchActive = true ∨ freezeActive = true) :
    ∀ action ∈ (gatedActions settings freezeActive actions).1, action.actionType = .cancel := by
  intro action haction
  cases hall : settings.killSwitchFreezeAll with
  | true =>
    rw [gatedActions_frozen hgate hall] at haction
    cases haction
  | false =>
    rw [gatedActions_open hgate hall] at haction
    simpa [isCancel] using (List.mem_filter.mp haction).2

/-- A gated call carries out its cancels, unless it is refused at once. -/
theorem outcome_gated (w : World)
    (hgate : settings.killSwitchActive = true ∨ w.freeze.active = true) :
    (Unarmed settings ∧ (outcome (executeWithReport env settings actions) w).2 = w) ∨
      (¬ Unarmed settings ∧ outcome (executeWithReport env settings actions) w =
        runCancels env settings (liveMode settings)
          (plannedCancels settings w.freeze.active actions) w) := by
  by_cases hunarmed : Unarmed settings
  · refine .inl ⟨hunarmed, ?_⟩
    have hrefused : settings.liveTrading = true ∧ ¬ settings.isLiveTradingEnabled = true :=
      hunarmed
    unfold executeWithReport
    rw [if_pos hrefused]
    rfl
  · refine .inr ⟨hunarmed, ?_⟩
    have hgated : (settings.killSwitchActive || w.freeze.active) = true := by
      simpa using hgate
    have hregular : ∀ totals, outcome
        ((gatedActions settings w.freeze.active actions).1.foldlM
          (executeRegular env settings (liveMode settings)) totals) w =
        runCancels env settings (liveMode settings)
          (gatedActions settings w.freeze.active actions).1 w := by
      refine fun totals => outcome_cancels env settings (liveMode settings) _ _ ?_ totals w
      intro action haction b w'
      unfold executeRegular
      rw [gatedActions_cancels hgate action haction]
      exact outcome_map _ _ _
    have hallowed : ¬ (settings.liveTrading = true ∧ ¬ settings.isLiveTradingEnabled = true) :=
      hunarmed
    unfold executeWithReport
    rw [if_neg hallowed]
    have hget : (get : Exec World) w = .ok w w := rfl
    have hlive : (settings.isLiveTradingEnabled && !settings.dryRun) = liveMode settings := rfl
    simp only [outcome_bind, hget, hlive, hgated, plannedCancels, runCancels_append]
    rw [← hregular {}]
    unfold outcome
    cases (gatedActions settings w.freeze.active actions).1.foldlM
        (executeRegular env settings (liveMode settings)) {} w with
    | ok totals t => exact outcome_groups env settings (liveMode settings) _ totals t
    | error exc t => rfl

/-- Under the kill switch or the freeze nothing is submitted; with freeze all no call is made;
without it the cancels are carried out in one order, each once, up to the first that raises. -/
theorem gated_execution (settings : Settings) (actions : List LifecycleAction) (w : World)
    (hgate : settings.killSwitchActive = true ∨ w.freeze.active = true) :
    let ended := outcome (executeWithReport env settings actions) w
    NoSubmits w ended.2 ∧
      (settings.killSwitchFreezeAll = true → ended.2.calls = w.calls) ∧
      (Unarmed settings → ended.2 = w) ∧
      (settings.killSwitchFreezeAll = false → ¬ Unarmed settings →
        ∃ planned done, planned.Perm (actions.filter isCancel) ∧ done.IsPrefix planned ∧
          Carried env settings (liveMode settings) done w ended.1 ended.2 ∧
          (ended.1 = none → done = planned)) := by
  intro ended
  rcases @outcome_gated settings actions env w hgate with
    ⟨hunarmed, hsame⟩ | ⟨harmed, houtcome⟩
  · have hended : ended.2 = w := hsame
    rw [hended]
    exact ⟨NoSubmits.refl w, fun _ => rfl, fun _ => rfl, fun _ h => absurd hunarmed h⟩
  · have hended : ended = runCancels env settings (liveMode settings)
        (plannedCancels settings w.freeze.active actions) w := houtcome
    rw [hended]
    refine ⟨runCancels_noSubmits _ _ _ _ w, fun hall => ?_, fun h => absurd h harmed,
      fun hall _ => ?_⟩
    · rw [plannedCancels, gatedActions_frozen hgate hall]
      rfl
    · obtain ⟨done, hprefix, hcarried, hcomplete⟩ := runCancels_carried env settings
        (liveMode settings) (plannedCancels settings w.freeze.active actions) w
      refine ⟨_, done, ?_, hprefix, hcarried, hcomplete⟩
      rw [plannedCancels, gatedActions_open hgate hall]
      exact extracted_cancels actions

/-- The switch set at run time, live trading armed. -/
def switchedSettings : Settings := { sampleSettings with killSwitchEffective := some true }

def cancelPair : List LifecycleAction :=
  [sampleAction .cancel "stale" "a", sampleAction .cancel "stale" "b"]

def pairWorld : World := sampleWorld [sampleRow 1 "a" .open, sampleRow 2 "b" .open]

/-- An exchange that refuses the cancels with status 400. -/
def refusingEnv : Env :=
  sampleEnv (.ok "ex") (.error (.exchangeError { message := "bad", statusCode := some 400 }))

theorem gated_execution_switched :
    let ended := outcome (executeWithReport refusingEnv switchedSettings cancelPair) pairWorld
    NoSubmits pairWorld ended.2 ∧
      (switchedSettings.killSwitchFreezeAll = true → ended.2.calls = pairWorld.calls) ∧
      (Unarmed switchedSettings → ended.2 = pairWorld) ∧
      (switchedSettings.killSwitchFreezeAll = false → ¬ Unarmed switchedSettings →
        ∃ planned done, planned.Perm (cancelPair.filter isCancel) ∧ done.IsPrefix planned ∧
          Carried refusingEnv switchedSettings (liveMode switchedSettings) done pairWorld ended.1
            ended.2 ∧
          (ended.1 = none → done = planned)) :=
  gated_execution refusingEnv switchedSettings cancelPair pairWorld (.inl rfl)

/-- The first cancel is refused: the second one's order is neither asked for nor marked. -/
theorem refused_cancel_ends :
    let after := (outcome (executeWithReport refusingEnv switchedSettings cancelPair) pairWorld).2
    switchedSettings.killSwitchActive = true ∧ switchedSettings.killSwitchFreezeAll = false ∧
      ¬ Unarmed switchedSettings ∧ sampleAction .cancel "stale" "b" ∈ cancelPair ∧
      after.calls.map Entry.call = [.cancel "ex-a"
        (.error (.exchangeError { message := "bad", statusCode := some 400 }))] ∧
      getStage4OrderByClientId after.orders "b" = some (sampleRow 2 "b" .open) := by
  intro after
  refine ⟨rfl, rfl, ?_, by simp [cancelPair], by decide +kernel, by decide +kernel⟩
  simp [Unarmed, switchedSettings, sampleSettings, Settings.isLiveTradingEnabled]

end Gated

end Stage4Gate
