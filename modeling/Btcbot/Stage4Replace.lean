import Btcbot.Stage4Submit

/-!
# Replace transactions over many calls

A replacement is submitted only where its cancels are confirmed, and a terminal
transaction stays as it is. That the transaction submits once rests on the answers:
an answer that leaves open what became of the submission leaves the transaction where
the next call takes it up again.
-/
namespace Stage4Replace

open PyData ExchangeErrors ExecutionWrapper Stage4Store Stage4Execute Stage4Submit Effects
open Stage4Reconcile (buildExchangeClientId)

/-- The transaction whose order an entry submits. -/
def tag (entry : Entry) : Option Replaces :=
  match entry.call with
  | .submit replaces _ _ _ => replaces
  | _ => none

def tags (replaceTxId : String) (entry : Entry) : Bool :=
  (tag entry).any (·.replaceTxId = replaceTxId)

def AllTerminal (oldIds : List String) (orders : List OrderRow) : Prop :=
  ∀ oldId ∈ oldIds, isOrderTerminal orders oldId = true

/-- An open order list with none of the ids, made when all of them are stored as over. -/
def ListsNone (symbol : String) (oldIds : List String) (entry : Entry) : Prop :=
  ∃ openIds, entry.call = .openOrders symbol (.ok openIds) ∧
    (∀ oldId ∈ oldIds, some oldId ∉ openIds) ∧ AllTerminal oldIds entry.orders

/-- What a submission replaces are the orders of the group. -/
structure OfGroup (group : ReplaceGroup) (replaces : Replaces) : Prop where
  symbol : replaces.symbol = group.symbol
  side : replaces.side = group.side
  oldIds : replaces.oldIds = oldIdsOf group

/-- Each replacement among the calls is one of those meant, comes after an open order list
without the ids it replaces, and finds them terminal. -/
def Confirmed (P : Replaces → Prop) (made : List Entry) : Prop :=
  ∀ before entry after replaces, made = before ++ entry :: after → tag entry = some replaces →
    P replaces ∧ (∃ listed ∈ before, ListsNone replaces.symbol replaces.oldIds listed) ∧
      AllTerminal replaces.oldIds entry.orders

def TerminalTx (replaceTxs : ReplaceTxs) (replaceTxId : String) : Prop :=
  ∃ tx, replaceTxs[replaceTxId]? = some tx ∧ tx.state.terminal = true

theorem TerminalTx.settles {before after : ReplaceTxs} {replaceTxId : String}
    (h : TerminalTx before replaceTxId) (hsettles : Settles before after) :
    TerminalTx after replaceTxId := by
  obtain ⟨tx, htx, hterminal⟩ := h
  obtain ⟨tx', htx', hstate⟩ := hsettles replaceTxId tx htx hterminal
  exact ⟨tx', htx', hstate ▸ hterminal⟩

/-- A transaction keeps the ids of the orders it replaces, and a terminal one its state. -/
def Carried (before after : ReplaceTxs) : Prop :=
  Settles before after ∧ ∀ (replaceTxId : String) (tx : ReplaceTx),
    before[replaceTxId]? = some tx →
    ∃ tx', after[replaceTxId]? = some tx' ∧ tx'.oldClientOrderIds = tx.oldClientOrderIds

theorem Carried.refl (replaceTxs : ReplaceTxs) : Carried replaceTxs replaceTxs :=
  ⟨Settles.refl _, fun _ tx htx => ⟨tx, htx, rfl⟩⟩

theorem Carried.trans {a b c : ReplaceTxs} (hab : Carried a b) (hbc : Carried b c) :
    Carried a c := by
  refine ⟨hab.1.trans hbc.1, fun replaceTxId tx htx => ?_⟩
  obtain ⟨tx', htx', hids⟩ := hab.2 replaceTxId tx htx
  obtain ⟨tx'', htx'', hids'⟩ := hbc.2 replaceTxId tx' htx'
  exact ⟨tx'', htx'', hids'.trans hids⟩

theorem updateReplaceTxState_carried (replaceTxs : ReplaceTxs) (now : ℤ) (replaceTxId : String)
    (state : ReplaceTxState) (lastError : Option String) :
    Carried replaceTxs (updateReplaceTxState replaceTxs now replaceTxId state lastError) := by
  refine ⟨updateReplaceTxState_settles _ _ _ _ _, fun other tx htx => ?_⟩
  unfold updateReplaceTxState
  split
  · exact ⟨tx, htx, rfl⟩
  · next stored hstored =>
    rw [Dict.insert_get]
    by_cases hkey : replaceTxId = other
    · subst hkey
      rw [hstored] at htx
      cases htx
      exact ⟨_, if_pos rfl, rfl⟩
    · exact ⟨tx, by rw [if_neg hkey, htx], rfl⟩

/-- The first record of a transaction leaves the others as they are. -/
theorem upsertReplaceTx_carried {replaceTxs : ReplaceTxs} {replaceTxId : String}
    (hnew : replaceTxs[replaceTxId]? = none) (now : ℤ) (symbol side : String)
    (oldIds : List String) (newId : String) (state : ReplaceTxState)
    (lastError : Option String) :
    Carried replaceTxs
      (upsertReplaceTx replaceTxs now replaceTxId symbol side oldIds newId state lastError) := by
  refine ⟨upsertReplaceTx_settles _ _ _ _ _ _ _ _ _, fun other tx htx => ?_⟩
  unfold upsertReplaceTx
  rw [hnew]
  dsimp only
  rw [Dict.insert_get]
  by_cases hkey : replaceTxId = other
  · rw [hkey, htx] at hnew
    cases hnew
  · exact ⟨tx, by rw [if_neg hkey, htx], rfl⟩

section Relations

/-- Each replacement names the orders that its stored transaction replaces. -/
def Owned (replaceTxs : ReplaceTxs) (made : List Entry) : Prop :=
  ∀ entry ∈ made, ∀ replaces, tag entry = some replaces →
    ∃ tx, replaceTxs[replaces.replaceTxId]? = some tx ∧
      sameIds tx.oldClientOrderIds replaces.oldIds = true

theorem Owned.carried {before after : ReplaceTxs} {made : List Entry} (h : Owned before made)
    (hcarried : Carried before after) : Owned after made := by
  intro entry hentry replaces htag
  obtain ⟨tx, htx, hsame⟩ := h entry hentry replaces htag
  obtain ⟨tx', htx', hids⟩ := hcarried.2 _ tx htx
  exact ⟨tx', htx', hids ▸ hsame⟩

theorem owned_untagged {replaceTxs : ReplaceTxs} {made : List Entry}
    (h : ∀ entry ∈ made, tag entry = none) : Owned replaceTxs made := by
  intro entry hentry replaces htag
  rw [h entry hentry] at htag
  cases htag

theorem Owned.append {replaceTxs : ReplaceTxs} {first second : List Entry}
    (hfirst : Owned replaceTxs first) (hsecond : Owned replaceTxs second) :
    Owned replaceTxs (first ++ second) := by
  intro entry hentry
  rcases List.mem_append.mp hentry with h | h
  · exact hfirst entry h
  · exact hsecond entry h

/-- A transaction submitted once, or not at all: once, it was open and is settled. -/
def SpentOnce (before after : ReplaceTxs) (made : List Entry) : Prop :=
  ∀ replaceTxId, made.countP (tags replaceTxId) = 0 ∨
    made.countP (tags replaceTxId) = 1 ∧ ¬ TerminalTx before replaceTxId ∧
      TerminalTx after replaceTxId

/-- What an execution keeps, the last part when its submissions are settled. -/
def Replaced (P : Replaces → Prop) (settled : Prop) (w t : World) : Prop :=
  Carried w.replaceTxs t.replaceTxs ∧ ∃ made, t.calls = w.calls ++ made ∧
    (Confirmed P made ∧ Owned t.replaceTxs made) ∧
      (settled → SpentOnce w.replaceTxs t.replaceTxs made)

/-- No transaction is touched. -/
def Aside (w t : World) : Prop :=
  t.replaceTxs = w.replaceTxs ∧
    ∃ made, t.calls = w.calls ++ made ∧ ∀ entry ∈ made, tag entry = none

variable {P : Replaces → Prop}

theorem confirmed_append {first second : List Entry} (hfirst : Confirmed P first)
    (hsecond : Confirmed P second) : Confirmed P (first ++ second) := by
  intro before entry after replaces hmade htag
  rcases List.append_eq_append_iff.mp hmade with ⟨rest, hbefore, hrest⟩ | ⟨rest, hfirst', hrest⟩
  · obtain ⟨hmeant, ⟨listed, hlisted, hnone⟩, hterminal⟩ :=
      hsecond rest entry after replaces hrest htag
    exact ⟨hmeant, ⟨listed, hbefore ▸ List.mem_append_right _ hlisted, hnone⟩, hterminal⟩
  · cases rest with
    | nil =>
      obtain ⟨-, ⟨listed, hlisted, -⟩, -⟩ := hsecond [] entry after replaces hrest.symm htag
      cases hlisted
    | cons other rest =>
      rw [List.cons_append, List.cons.injEq] at hrest
      obtain ⟨rfl, rfl⟩ := hrest
      exact hfirst before entry rest replaces hfirst' htag

theorem confirmed_untagged {made : List Entry} (h : ∀ entry ∈ made, tag entry = none) :
    Confirmed P made := by
  intro before entry after replaces hmade htag
  rw [h entry (by simp [hmade])] at htag
  cases htag

theorem confirmed_nil : Confirmed P [] := confirmed_untagged (List.forall_mem_nil _)

theorem countP_untagged {made : List Entry} (h : ∀ entry ∈ made, tag entry = none)
    (replaceTxId : String) : made.countP (tags replaceTxId) = 0 := by
  rw [List.countP_eq_zero]
  intro entry hentry
  simp [tags, h entry hentry]

theorem spentOnce_append {a b c : ReplaceTxs} {first second : List Entry} (hab : Settles a b)
    (hbc : Settles b c) (hfirst : SpentOnce a b first) (hsecond : SpentOnce b c second) :
    SpentOnce a c (first ++ second) := by
  intro replaceTxId
  rw [List.countP_append]
  rcases hfirst replaceTxId with hzero | ⟨hone, hopen, hterminal⟩
  · rcases hsecond replaceTxId with hzero' | ⟨hone', hopen', hterminal'⟩
    · exact .inl (by omega)
    · exact .inr ⟨by omega, fun h => hopen' (h.settles hab), hterminal'⟩
  · rcases hsecond replaceTxId with hzero' | ⟨_, hopen', _⟩
    · exact .inr ⟨by omega, hopen, hterminal.settles hbc⟩
    · exact absurd hterminal hopen'

instance (settled : Prop) : IsPreorder World (Replaced P settled) where
  refl w := ⟨Carried.refl _, [], (List.append_nil _).symm,
    ⟨confirmed_nil, owned_untagged (List.forall_mem_nil _)⟩,
    fun _ _ => .inl rfl⟩
  trans a b c := by
    rintro ⟨hab, made, hmade, hconfirmed, hspent⟩ ⟨hbc, more, hmore, hconfirmed', hspent'⟩
    refine ⟨hab.trans hbc, made ++ more, by rw [hmore, hmade, List.append_assoc],
      ⟨confirmed_append hconfirmed.1 hconfirmed'.1,
        (hconfirmed.2.carried hbc).append hconfirmed'.2⟩, fun h => ?_⟩
    exact spentOnce_append hab.1 hbc.1 (hspent h) (hspent' h)

instance : IsPreorder World Aside where
  refl w := ⟨rfl, [], (List.append_nil _).symm, List.forall_mem_nil _⟩
  trans a b c := by
    rintro ⟨hab, made, hmade, hnone⟩ ⟨hbc, more, hmore, hnone'⟩
    refine ⟨hbc.trans hab, made ++ more, by rw [hmore, hmade, List.append_assoc],
      fun entry hentry => ?_⟩
    rcases List.mem_append.mp hentry with h | h
    · exact hnone entry h
    · exact hnone' entry h

theorem Aside.replaced {settled : Prop} {w t : World} (h : Aside w t) :
    Replaced P settled w t := by
  obtain ⟨hsame, made, hmade, hnone⟩ := h
  refine ⟨hsame ▸ Carried.refl _, made, hmade, ⟨confirmed_untagged hnone, owned_untagged hnone⟩,
    fun _ replaceTxId => ?_⟩
  exact .inl (countP_untagged hnone replaceTxId)

end Relations

section Answered

/-- An answer that settles a submission: an acknowledgement, or the refusal that is
recorded as one and not tried again. -/
def Settling : Except Exc String → Prop
  | .ok _ => True
  | .error exc => extractExchangeErrorCode exc = some reject1123Code ∧ ¬ Retryable exc

/-- Every submission of the new order of a group gets an answer that settles it. -/
def Answered (env : Env) (group : ReplaceGroup) : Prop :=
  ∀ n (order : LimitOrder),
    order.clientOrderId = buildExchangeClientId env.sha256
      (group.submitAction.clientOrderId.getD "") group.submitAction.symbol
      group.submitAction.side →
    Settling (env.submitLimitOrder n order)

theorem classify_exchangeError (error : ExchangeError) :
    classifyExchangeError (.exchangeError error) ≠ .uncertain := by
  unfold classifyExchangeError
  dsimp only
  split_ifs <;> decide

variable {env : Env} {settings : Settings} {replaces : Option Replaces}
  {action : LifecycleAction} {w t : World} {s : Submission} {result : Except Exc Counts}

/-- Answers that settle end a submission with its first attempt, counted. -/
theorem sent_settled (h : Sent env settings replaces action w s result t)
    (hsettling : ∀ n, Settling (env.submitLimitOrder n s.order)) :
    s.before = [] ∧
      ∃ counts, result = .ok counts ∧ (0 < counts.submitted ∨ 0 < counts.rejected) := by
  have hanswer : ∀ answer ∈ s.before ++ [s.last], Settling answer := by
    intro answer hanswer
    obtain ⟨n, hn⟩ := h.answers.asked answer hanswer
    rw [hn]
    exact hsettling n
  constructor
  · rw [List.eq_nil_iff_forall_not_mem]
    intro answer hbefore
    obtain ⟨exc, rfl, hretry⟩ := h.answers.retried answer hbefore
    exact (hanswer _ (List.mem_append_left _ hbefore)).2 hretry
  · have hlast := hanswer s.last (List.mem_append_right _ List.mem_cons_self)
    have hresult := h.result
    unfold Submission.counts at hresult
    cases hs : s.last with
    | ok id =>
      rw [hs] at hresult
      exact ⟨_, hresult, .inl Nat.one_pos⟩
    | error exc =>
      rw [hs] at hresult hlast
      obtain ⟨hcode, -⟩ := hlast
      have hknown : classifyExchangeError exc ≠ .uncertain := by
        cases exc with
        | exchangeError error => exact classify_exchangeError error
        | _ => simp [extractExchangeErrorCode] at hcode
      dsimp only at hresult
      rw [if_neg hknown, if_pos hcode] at hresult
      exact ⟨_, hresult, .inr Nat.one_pos⟩

end Answered

section Programs

variable {env : Env} {settings : Settings} {P : Replaces → Prop} {settled : Prop}

theorem aside_executeCancelAction (action : LifecycleAction) (live : Bool) :
    Keeps Aside (executeCancelAction env settings action live) := by
  have hsame (w : World) : Aside w w := refl_of Aside w
  refine executeCancelAction_keeps (fun _ _ w _ _ _ => hsame w) ?_
  intro w exchangeOrderId answer
  refine ⟨rfl, _, rfl, fun entry hentry => ?_⟩
  cases List.mem_singleton.mp hentry
  rfl

theorem aside_cancelAll (actions : List LifecycleAction) (live : Bool) :
    Keeps Aside (cancelAll env settings actions live) :=
  Keeps.foldlM (fun _ _ => (aside_executeCancelAction _ _).bind fun _ => Keeps.pure _) actions 0

theorem silent_aside {action : LifecycleAction} {w t : World}
    (h : Silent env settings action w t) : Aside w t :=
  ⟨h.replaceTxs, [], by rw [h.calls, List.append_nil], List.forall_mem_nil _⟩

/-- The entries of a submission carry its transaction. -/
theorem tag_attempts {replaces : Option Replaces} {clientOrderId : String} {order : LimitOrder}
    {orders : List OrderRow} {answers : List (Except Exc String)} :
    ∀ entry ∈ answers.map (fun answer =>
        (⟨.submit replaces clientOrderId order answer, orders⟩ : Entry)),
      tag entry = replaces ∧ entry.orders = orders := by
  intro entry hentry
  obtain ⟨answer, -, rfl⟩ := List.mem_map.mp hentry
  exact ⟨rfl, rfl⟩

/-- A submission outside a group touches no transaction. -/
theorem aside_executeSubmitAction (action : LifecycleAction) (live : Bool) :
    Keeps Aside (executeSubmitAction env settings none action live) := by
  have haside {w t : World} {result : Except Exc Counts}
      (h : Submits env settings none action w result t) : Aside w t := by
    rcases h with h | ⟨s, h⟩
    · exact silent_aside h
    · exact ⟨h.replaceTxs, _, h.calls, fun entry hentry => (tag_attempts entry hentry).1⟩
  intro w
  exact (executeSubmitAction_ends live).mono (fun _ _ h => haside h) (fun _ _ h => haside h)

theorem replaced_setReplaceTxState (replaceTxId : String) (state : ReplaceTxState)
    (lastError : Option String) :
    Keeps (Replaced P settled) (setReplaceTxState env replaceTxId state lastError) :=
  fun _ => ⟨updateReplaceTxState_carried _ _ _ _ _, [], (List.append_nil _).symm,
    ⟨confirmed_nil, owned_untagged (List.forall_mem_nil _)⟩, fun _ _ => .inl rfl⟩

/-- A transaction of some orders that is stored and may still move. -/
def OpenTx (replaceTxs : ReplaceTxs) (replaceTxId : String) (oldIds : List String) : Prop :=
  ∃ tx, replaceTxs[replaceTxId]? = some tx ∧ tx.state.terminal = false ∧
    sameIds tx.oldClientOrderIds oldIds = true

theorem OpenTx.not_terminal {replaceTxs : ReplaceTxs} {replaceTxId : String}
    {oldIds : List String} (h : OpenTx replaceTxs replaceTxId oldIds) :
    ¬ TerminalTx replaceTxs replaceTxId := by
  rintro ⟨tx, htx, hterminal⟩
  obtain ⟨tx', htx', hopen, -⟩ := h
  rw [htx] at htx'
  cases htx'
  rw [hterminal] at hopen
  cases hopen

variable {replaceTxs : ReplaceTxs} {now : ℤ} {replaceTxId : String} {state : ReplaceTxState}
  {lastError : Option String}

theorem updateReplaceTxState_get {tx : ReplaceTx} (htx : replaceTxs[replaceTxId]? = some tx) :
    ∃ tx', (updateReplaceTxState replaceTxs now replaceTxId state lastError)[replaceTxId]? =
      some tx' ∧ tx'.state = forwarded tx.state state ∧
        tx'.oldClientOrderIds = tx.oldClientOrderIds := by
  unfold updateReplaceTxState
  rw [htx]
  dsimp only
  rw [Dict.insert_get, if_pos rfl]
  exact ⟨_, rfl, rfl, rfl⟩

/-- Moved to a state that is not terminal, an open transaction stays open. -/
theorem OpenTx.update {oldIds : List String} (h : OpenTx replaceTxs replaceTxId oldIds)
    (hstate : state.terminal = false) :
    OpenTx (updateReplaceTxState replaceTxs now replaceTxId state lastError) replaceTxId
      oldIds := by
  obtain ⟨tx, htx, hopen, hsame⟩ := h
  obtain ⟨tx', htx', hforwarded, hids⟩ := @updateReplaceTxState_get _ now _ state lastError tx htx
  refine ⟨tx', htx', ?_, hids ▸ hsame⟩
  rw [hforwarded]
  unfold forwarded
  split
  · exact hstate
  · exact hopen

/-- Moved to a terminal state, an open transaction is terminal. -/
theorem OpenTx.terminated {oldIds : List String} (h : OpenTx replaceTxs replaceTxId oldIds)
    (hstate : state.terminal = true) :
    TerminalTx (updateReplaceTxState replaceTxs now replaceTxId state lastError)
      replaceTxId := by
  obtain ⟨tx, htx, hopen, -⟩ := h
  obtain ⟨tx', htx', hforwarded, -⟩ := @updateReplaceTxState_get _ now _ state lastError tx htx
  exact ⟨tx', htx', by rw [hforwarded, forwarded_last hopen hstate, hstate]⟩

/-- A group whose cancels are confirmed since `w`, its transaction open throughout. -/
structure Ready (group : ReplaceGroup) (replaceTxId : String) (w t : World) : Prop where
  carried : Carried w.replaceTxs t.replaceTxs
  was : ¬ TerminalTx w.replaceTxs replaceTxId
  isOpen : OpenTx t.replaceTxs replaceTxId (oldIdsOf group)
  listed : ∃ made, t.calls = w.calls ++ made ∧ (∀ entry ∈ made, tag entry = none) ∧
    ∃ entry ∈ made, ListsNone group.symbol (oldIdsOf group) entry
  terminal : AllTerminal (oldIdsOf group) t.orders

theorem Ready.moved {group : ReplaceGroup} {w t : World} (h : Ready group replaceTxId w t)
    (hstate : state.terminal = false) :
    Ends (setReplaceTxState env replaceTxId state lastError) t
      (fun _ => Ready group replaceTxId w) (fun _ _ => False) :=
  { h with
    carried := h.carried.trans (updateReplaceTxState_carried _ _ _ _ _)
    isOpen := h.isOpen.update hstate }

/-- What the submission of a replacement leaves: confirmed calls, and if its answers
settle, at most one submission, counted. -/
structure Submitted (P : Replaces → Prop) (settled : Prop) (replaceTxId : String) (w t : World)
    (counts : Counts) : Prop where
  carried : Carried w.replaceTxs t.replaceTxs
  was : ¬ TerminalTx w.replaceTxs replaceTxId
  isOpen : ∃ oldIds, OpenTx t.replaceTxs replaceTxId oldIds
  calls : ∃ made, t.calls = w.calls ++ made ∧ (Confirmed P made ∧ Owned t.replaceTxs made) ∧
    (settled → ∀ other, made.countP (tags other) = 0 ∨
      other = replaceTxId ∧ made.countP (tags other) = 1 ∧
        (0 < counts.submitted ∨ 0 < counts.rejected))

/-- The label of what is submitted for a group. -/
abbrev replacesOf (replaceTxId : String) (group : ReplaceGroup) : Replaces :=
  ⟨replaceTxId, group.symbol, group.side, oldIdsOf group⟩

/-- The entries of a submission, after its confirmed cancels. -/
theorem confirmed_submission {group : ReplaceGroup} {made attempts : List Entry}
    {orders : List OrderRow} (hnone : ∀ entry ∈ made, tag entry = none)
    (hlisted : ∃ entry ∈ made, ListsNone group.symbol (oldIdsOf group) entry)
    (hterminal : AllTerminal (oldIdsOf group) orders)
    (hattempts : ∀ entry ∈ attempts,
      tag entry = some (replacesOf replaceTxId group) ∧ entry.orders = orders) :
    Confirmed (OfGroup group) (made ++ attempts) := by
  intro before entry after replaces hsplit htag
  have hof : OfGroup group (replacesOf replaceTxId group) := ⟨rfl, rfl, rfl⟩
  obtain ⟨listed, hin, hlists⟩ := hlisted
  rcases List.append_eq_append_iff.mp hsplit with ⟨rest, hbefore, hrest⟩ | ⟨rest, hmade, hrest⟩
  · obtain ⟨hsame, horders⟩ := hattempts entry (by simp [hrest])
    rw [hsame] at htag
    cases htag
    exact ⟨hof, ⟨listed, hbefore ▸ List.mem_append_left _ hin, hlists⟩, horders ▸ hterminal⟩
  · cases rest with
    | nil =>
      have hattempt : entry ∈ attempts := by
        rw [← List.nil_append attempts, ← hrest]
        exact List.mem_cons_self
      obtain ⟨hsame, horders⟩ := hattempts entry hattempt
      rw [hsame] at htag
      cases htag
      rw [List.append_nil] at hmade
      exact ⟨hof, ⟨listed, hmade ▸ hin, hlists⟩, horders ▸ hterminal⟩
    | cons other rest =>
      rw [List.cons_append, List.cons.injEq] at hrest
      obtain ⟨rfl, -⟩ := hrest
      rw [hnone entry (by simp [hmade])] at htag
      cases htag

/-- Calls of one transaction only, at most one of them, count for no other. -/
theorem countP_single {attempt : Entry} {replaces : Replaces} (htag : tag attempt = some replaces)
    (other : String) : [attempt].countP (tags other) = 0 ∨
      other = replaces.replaceTxId ∧ [attempt].countP (tags other) = 1 := by
  by_cases hother : replaces.replaceTxId = other
  · exact .inr ⟨hother.symm, by simp [tags, htag, hother]⟩
  · exact .inl (by simp [tags, htag, hother])

variable {group : ReplaceGroup} {w t : World}

/-- A replacement that was not sent leaves what was there. -/
theorem Ready.silent {u : World} {action : LifecycleAction} (h : Ready group replaceTxId w t)
    (hsilent : Silent env settings action t u) (counts : Counts) :
    Submitted P settled replaceTxId w u counts ∧ Replaced P settled w u := by
  obtain ⟨made, hmade, hnone, -⟩ := h.listed
  have hcarried : Carried w.replaceTxs u.replaceTxs := hsilent.replaceTxs ▸ h.carried
  have hcalls : u.calls = w.calls ++ made := hsilent.calls.trans hmade
  constructor
  · exact ⟨hcarried, h.was, ⟨_, hsilent.replaceTxs ▸ h.isOpen⟩, made, hcalls,
      ⟨confirmed_untagged hnone, owned_untagged hnone⟩,
      fun _ other => .inl (countP_untagged hnone other)⟩
  · exact ⟨hcarried, made, hcalls, ⟨confirmed_untagged hnone, owned_untagged hnone⟩,
      fun _ other => .inl (countP_untagged hnone other)⟩

/-- The calls of a replacement that was sent: confirmed, and if its answers settle, one that
is counted. -/
theorem Ready.sent {u : World} {result : Except Exc Counts} {action : LifecycleAction}
    {s : Submission} (h : Ready group replaceTxId w t)
    (hsent : Sent env settings (some (replacesOf replaceTxId group)) action t s result u)
    (hid : action.clientOrderId = group.submitAction.clientOrderId)
    (hsymbol : action.symbol = group.submitAction.symbol)
    (hside : action.side = group.submitAction.side) :
    ∃ made, u.calls = w.calls ++ made ∧ (Confirmed (OfGroup group) made ∧ Owned u.replaceTxs made) ∧
      (Answered env group →
        (∃ counts, result = .ok counts ∧ (0 < counts.submitted ∨ 0 < counts.rejected)) ∧
          ∀ other, made.countP (tags other) = 0 ∨
            other = replaceTxId ∧ made.countP (tags other) = 1) := by
  obtain ⟨made, hmade, hnone, hlisted⟩ := h.listed
  generalize hattempts : (s.before ++ [s.last]).map (fun answer =>
    (⟨.submit (some (replacesOf replaceTxId group)) s.clientOrderId s.order answer,
      t.orders⟩ : Entry)) = attempts
  have htags : ∀ entry ∈ attempts,
      tag entry = some (replacesOf replaceTxId group) ∧ entry.orders = t.orders :=
    hattempts ▸ tag_attempts
  have howned : Owned u.replaceTxs attempts := by
    intro entry hentry replaces htag
    rw [(htags entry hentry).1] at htag
    cases htag
    obtain ⟨tx, htx, -, hsame⟩ := h.isOpen
    exact ⟨tx, hsent.replaceTxs ▸ htx, hsame⟩
  refine ⟨made ++ attempts, ?_, ⟨confirmed_submission hnone hlisted h.terminal htags,
    (owned_untagged hnone).append howned⟩, fun hanswered => ?_⟩
  · rw [hsent.calls, ← hattempts, ← List.append_assoc, ← hmade]
    rfl
  · obtain ⟨hbefore, hcounted⟩ := sent_settled hsent fun n => by
      refine hanswered n s.order ?_
      rw [← hid, hsent.named, ← hsymbol, ← hside, Option.getD_some, ← hsent.exchangeId]
    refine ⟨hcounted, fun other => ?_⟩
    rw [List.countP_append, countP_untagged hnone, Nat.zero_add, ← hattempts, hbefore]
    exact @countP_single ⟨.submit (some (replacesOf replaceTxId group)) s.clientOrderId
      s.order s.last, t.orders⟩ _ rfl other

/-- A submission that was ready leaves what `Submitted` says. -/
theorem Ready.submits {u : World} {result : Except Exc Counts} {action : LifecycleAction}
    (h : Ready group replaceTxId w t)
    (hsubmits : Submits env settings (some (replacesOf replaceTxId group)) action t result u)
    (hid : action.clientOrderId = group.submitAction.clientOrderId)
    (hsymbol : action.symbol = group.submitAction.symbol)
    (hside : action.side = group.submitAction.side) :
    (∀ counts, result = .ok counts → Submitted (OfGroup group) (Answered env group) replaceTxId w u counts) ∧
      ∀ exc, result = .error exc → Replaced (OfGroup group) (Answered env group) w u := by
  rcases hsubmits with hsilent | ⟨s, hsent⟩
  · exact ⟨fun counts _ => (h.silent hsilent counts).1, fun _ _ => (h.silent hsilent {}).2⟩
  · have hcarried : Carried w.replaceTxs u.replaceTxs := hsent.replaceTxs ▸ h.carried
    obtain ⟨made, hcalls, hconfirmed, hsettled⟩ := h.sent hsent hid hsymbol hside
    constructor
    · intro counts hcounts
      refine ⟨hcarried, h.was, ⟨_, hsent.replaceTxs ▸ h.isOpen⟩, made, hcalls, hconfirmed, ?_⟩
      intro hanswered other
      obtain ⟨⟨counts', hresult, hcounted⟩, hspent⟩ := hsettled hanswered
      rw [hcounts] at hresult
      cases hresult
      exact (hspent other).imp_right fun hone => ⟨hone.1, hone.2, hcounted⟩
    · intro exc hexc
      refine ⟨hcarried, made, hcalls, hconfirmed, fun hanswered => ?_⟩
      obtain ⟨⟨counts, hresult, -⟩, -⟩ := hsettled hanswered
      rw [hexc] at hresult
      cases hresult

/-- Where the submission is counted the transaction becomes terminal. -/
theorem Submitted.recorded {counts : Counts} {u : World}
    (h : Submitted P settled replaceTxId w t counts) (hcalls : u.calls = t.calls)
    (hcarried : Carried t.replaceTxs u.replaceTxs)
    (hterminal : 0 < counts.submitted ∨ 0 < counts.rejected →
      TerminalTx u.replaceTxs replaceTxId) : Replaced P settled w u := by
  obtain ⟨made, hmade, hconfirmed, hspent⟩ := h.calls
  refine ⟨h.carried.trans hcarried, made, hcalls.trans hmade,
    ⟨hconfirmed.1, hconfirmed.2.carried hcarried⟩, fun hsettled other => ?_⟩
  rcases hspent hsettled other with hzero | ⟨rfl, hone, hcounted⟩
  · exact .inl hzero
  · exact .inr ⟨hone, h.was, hterminal hcounted⟩

theorem submitReplacement_ends (live : Bool) (h : Ready group replaceTxId w t) :
    Ends (submitReplacement env settings group replaceTxId live) t
      (fun _ => Replaced (OfGroup group) (Answered env group) w)
      (fun _ => Replaced (OfGroup group) (Answered env group) w) := by
  unfold submitReplacement
  rw [ends_bind]
  refine (h.moved rfl).mono (fun _ t hconfirmed => ?_) fun _ _ h => h.elim
  rw [ends_bind]
  refine (hconfirmed.moved rfl).mono (fun _ t hready => ?_) fun _ _ h => h.elim
  rw [ends_bind]
  refine (executeSubmitAction_ends live).mono ?_
    (fun exc u hsubmits => (hready.submits hsubmits rfl rfl rfl).2 exc rfl)
  intro counts u hsubmits
  have hsubmitted := (hready.submits hsubmits rfl rfl rfl).1 counts rfl
  obtain ⟨oldIds, hopen⟩ := hsubmitted.isOpen
  dsimp only
  rw [ends_ite]
  split
  · exact hsubmitted.recorded rfl (updateReplaceTxState_carried _ _ _ _ _)
      fun _ => hopen.terminated rfl
  · next hnot =>
    rw [ends_ite]
    split
    · exact hsubmitted.recorded rfl (updateReplaceTxState_carried _ _ _ _ _)
        fun _ => hopen.terminated rfl
    · next hnone =>
      exact hsubmitted.recorded rfl (Carried.refl _) fun hcounted => by omega

theorem confirmReplaceCancels_ends :
    Ends (confirmReplaceCancels env group) t
      (fun reason u => Aside t u ∧ u.replaceTxs = t.replaceTxs ∧ (reason = none →
        (∃ made, u.calls = t.calls ++ made ∧ (∀ entry ∈ made, tag entry = none) ∧
          ∃ entry ∈ made, ListsNone group.symbol (oldIdsOf group) entry) ∧
        AllTerminal (oldIdsOf group) u.orders))
      (fun _ => Aside t) := by
  have haside (answer : Except Exc (List (Option String))) :
      Aside t (t.called (.openOrders group.symbol answer)) := by
    refine ⟨rfl, _, rfl, fun entry hentry => ?_⟩
    cases List.mem_singleton.mp hentry
    rfl
  unfold confirmReplaceCancels tryExcept
  rw [ends_tryCatch, ends_bind]
  refine ends_callExchange (fun openIds _ => ?_) fun exc _ => ?_
  · rw [ends_bind, ends_get, ends_pure]
    refine ⟨haside _, rfl, fun hnone => ?_⟩
    have hconfirmed := List.findSome?_eq_none_iff.mp hnone
    have hterminal : AllTerminal (oldIdsOf group) t.orders := by
      intro oldId hold
      have hid := hconfirmed oldId hold
      unfold unconfirmed at hid
      split at hid
      · cases hid
      · unfold isOrderTerminal
        split at hid
        · cases hid
        · next row hrow =>
          split at hid
          · next hterminal =>
            rw [show getStage4OrderByClientId t.orders oldId = some row from hrow]
            exact hterminal
          · cases hid
    refine ⟨⟨_, rfl, ?_, _, List.mem_singleton.mpr rfl, openIds, rfl, ?_, hterminal⟩, hterminal⟩
    · intro entry hentry
      cases List.mem_singleton.mp hentry
      rfl
    · intro oldId hold hopen
      have hid := hconfirmed oldId hold
      unfold unconfirmed at hid
      rw [if_pos hopen] at hid
      cases hid
  · rw [ends_ite]
    split
    · exact haside _
    · exact ⟨haside _, rfl, fun h => nomatch h⟩

/-- From a world where its transaction is stored and open, a group is replaced as it
should be. -/
theorem advanceReplace_ends (live : Bool)
    (h : OpenTx w.replaceTxs replaceTxId (oldIdsOf group)) :
    Ends (advanceReplace env settings group replaceTxId live) w
      (fun _ => Replaced (OfGroup group) (Answered env group) w)
      (fun _ => Replaced (OfGroup group) (Answered env group) w) := by
  unfold advanceReplace
  rw [ends_bind, ends_get, ends_ite]
  split
  · rw [ends_bind]
    exact replaced_setReplaceTxState _ _ _ w
  · rw [ends_bind]
    refine (aside_cancelAll group.cancelActions live w).mono (fun canceled t haside => ?_)
      (fun _ _ haside => haside.replaced)
    have hopen : OpenTx t.replaceTxs replaceTxId (oldIdsOf group) := haside.1 ▸ h
    rw [ends_bind]
    let u : World := { t with
      replaceTxs := updateReplaceTxState t.replaceTxs (env.now t.ticks) replaceTxId .cancelSent none
      ticks := t.ticks + 1 }
    have hsent : Replaced (OfGroup group) (Answered env group) w u :=
      trans_of (Replaced (OfGroup group) (Answered env group)) haside.replaced
        (@replaced_setReplaceTxState env (OfGroup group) (Answered env group) replaceTxId .cancelSent
          none t)
    show Ends _ u _ _
    rw [ends_bind]
    refine confirmReplaceCancels_ends.mono ?_ (fun _ _ hconfirm =>
      trans_of (Replaced (OfGroup group) (Answered env group)) hsent hconfirm.replaced)
    rintro reason v ⟨hconfirm, hsame, hready⟩
    have hreached := trans_of (Replaced (OfGroup group) (Answered env group)) hsent hconfirm.replaced
    cases reason with
    | some reason =>
      dsimp only
      rw [ends_bind]
      have hset := @replaced_setReplaceTxState env (OfGroup group) (Answered env group) replaceTxId
        .blockedReconcile (some reason) v
      exact trans_of (Replaced (OfGroup group) (Answered env group)) hreached hset
    | none =>
      obtain ⟨⟨made, hmade, hnone, hlisted⟩, hterminal⟩ := hready rfl
      obtain ⟨-, first, hfirst, hnone'⟩ := haside
      dsimp only
      rw [ends_bind]
      have hisReady : Ready group replaceTxId w v := by
        refine ⟨hreached.1, h.not_terminal, hsame ▸ hopen.update rfl, ⟨first ++ made, ?_, ?_, ?_⟩,
          hterminal⟩
        · rw [hmade, ← List.append_assoc, ← hfirst]
        · intro entry hentry
          rcases List.mem_append.mp hentry with hin | hin
          · exact hnone' entry hin
          · exact hnone entry hin
        · obtain ⟨entry, hin, hlists⟩ := hlisted
          exact ⟨entry, List.mem_append_right _ hin, hlists⟩
      exact submitReplacement_ends live hisReady

theorem replaced_executeReplaceGroup (group : ReplaceGroup) (live : Bool) :
    Keeps (Replaced (OfGroup group) (Answered env group)) (executeReplaceGroup env settings group live) := by
  intro w
  have hrefl : Replaced (OfGroup group) (Answered env group) w w := refl_of _ w
  unfold executeReplaceGroup
  dsimp only
  rw [ends_ite]
  split
  · exact hrefl
  · rw [ends_bind, ends_get]
    cases htx : w.replaceTxs[replaceTxIdOf env group]? with
    | none =>
      dsimp only
      rw [ends_bind]
      let u : World := { w with
        replaceTxs := upsertReplaceTx w.replaceTxs (env.now w.ticks) (replaceTxIdOf env group)
          group.symbol group.side (oldIdsOf group) (group.submitAction.clientOrderId.getD "") .init
          none
        ticks := w.ticks + 1 }
      show Ends _ u _ _
      have hreached : Replaced (OfGroup group) (Answered env group) w u :=
        ⟨upsertReplaceTx_carried htx _ _ _ _ _ _ _, [], (List.append_nil _).symm,
          ⟨confirmed_nil, owned_untagged (List.forall_mem_nil _)⟩, fun _ _ => .inl rfl⟩
      have hopen : OpenTx u.replaceTxs (replaceTxIdOf env group) (oldIdsOf group) := by
        dsimp only [u]
        unfold upsertReplaceTx
        rw [htx]
        dsimp only
        exact ⟨_, by rw [Dict.insert_get, if_pos rfl], rfl, by simp [sameIds]⟩
      exact (advanceReplace_ends live hopen).mono
        (fun _ _ h => trans_of (Replaced (OfGroup group) (Answered env group)) hreached h)
        (fun _ _ h => trans_of (Replaced (OfGroup group) (Answered env group)) hreached h)
    | some tx =>
      dsimp only
      rw [ends_ite]
      split
      · rw [ends_bind]
        exact replaced_setReplaceTxState _ _ _ w
      · next hmatch =>
        have hsame : sameIds tx.oldClientOrderIds (oldIdsOf group) = true := by
          by_contra hother
          exact hmatch (by simp [metadataMismatch, hother])
        rw [ends_ite]
        split
        · exact hrefl
        · next hstate =>
          exact advanceReplace_ends live ⟨tx, htx, (Bool.not_eq_true _).mp hstate, hsame⟩

theorem Replaced.weaken {P' : Replaces → Prop} {settled' : Prop} {w t : World}
    (h : Replaced P' settled' w t) (hmeant : ∀ replaces, P' replaces → P replaces)
    (himp : settled → settled') : Replaced P settled w t := by
  obtain ⟨hsettles, made, hmade, ⟨hconfirmed, howned⟩, hspent⟩ := h
  refine ⟨hsettles, made, hmade, ⟨?_, howned⟩, fun hs => hspent (himp hs)⟩
  intro before entry after replaces hsplit htag
  exact (hconfirmed before entry after replaces hsplit htag).imp_left (hmeant replaces)

theorem aside_keeps {α : Type} {m : Exec α} (h : Keeps Aside m) : Keeps (Replaced P settled) m :=
  h.imp fun _ _ haside => haside.replaced

theorem replaced_executeRegular (live : Bool) (totals : Totals) (action : LifecycleAction) :
    Keeps (Replaced P settled) (executeRegular env settings live totals action) := by
  unfold executeRegular
  split
  · exact aside_keeps ((aside_executeCancelAction _ _).bind fun _ => Keeps.pure _)
  · exact aside_keeps ((aside_executeSubmitAction _ _).bind fun _ => Keeps.pure _)
  · exact Keeps.pure _

/-- The gates let through only groups of the call. -/
theorem gatedActions_groups {freezeActive : Bool} {actions : List LifecycleAction}
    {group : ReplaceGroup} (h : group ∈ (gatedActions settings freezeActive actions).2) :
    group ∈ (extractReplaceGroups actions).2 := by
  have hgate (freezeAll : Bool) (left : List LifecycleAction × List ReplaceGroup)
      (hin : group ∈ (gateActions freezeAll left).2) : group ∈ left.2 := (List.mem_filter.mp hin).1
  unfold gatedActions at h
  dsimp only at h
  split at h
  · have h' := hgate _ _ h
    split at h'
    · exact hgate _ _ h'
    · exact h'
  · split at h
    · exact hgate _ _ h
    · exact h

/-- What a submission replaces are the orders of a group of the actions. -/
def OfActions (actions : List LifecycleAction) (replaces : Replaces) : Prop :=
  ∃ group ∈ (extractReplaceGroups actions).2, OfGroup group replaces

theorem replaced_executeWithReport (actions : List LifecycleAction) :
    Keeps (Replaced (OfActions actions)
        (∀ group ∈ (extractReplaceGroups actions).2, Answered env group))
      (executeWithReport env settings actions) := by
  unfold executeWithReport
  refine (Keeps.throw _).ite ?_
  refine Keeps.get.bind fun w => ?_
  dsimp only
  refine (Keeps.foldlM (fun _ _ => replaced_executeRegular _ _ _) _ _).bind fun totals => ?_
  refine Keeps.foldlM_mem _ (fun group hgroup totals => ?_) totals
  have hin := gatedActions_groups hgroup
  unfold executeGroup
  refine Keeps.ite ?_ ?_
  · exact aside_keeps ((aside_cancelAll _ _).bind fun _ => Keeps.pure _)
  · refine Keeps.bind ?_ fun _ => Keeps.pure _
    exact (replaced_executeReplaceGroup group _).imp fun _ _ h =>
      h.weaken (fun _ hof => ⟨group, hin, hof⟩) fun hall => hall group hin

end Programs

section Runs

/-- Every submission of a replacement is settled by its answer. -/
def AllAnswered (executions : List Execution) : Prop :=
  ∀ execution ∈ executions, ∀ group ∈ (extractReplaceGroups execution.actions).2,
    Answered execution.env group

/-- The calls of one execution, after those before it. -/
def madeBy (before : List Execution) (execution : Execution) : List Entry :=
  (run (before ++ [execution])).calls.drop (run before).calls.length

/-- The exchange id under which an order of a transaction is listed. -/
def exchangeIdOf (env : Env) (symbol side oldId : String) : String :=
  buildExchangeClientId env.sha256 oldId symbol side

/-- An open order list that shows an order of the group under its exchange id alone finds it
stored as not over. -/
def Disclosed (env : Env) (group : ReplaceGroup) (entry : Entry) : Prop :=
  ∀ openIds, entry.call = .openOrders group.symbol (.ok openIds) → ∀ oldId ∈ oldIdsOf group,
    some (exchangeIdOf env group.symbol group.side oldId) ∈ openIds →
      some oldId ∈ openIds ∨ isOrderTerminal entry.orders oldId = false

def AllDisclosed (executions : List Execution) : Prop :=
  ∀ before execution after, executions = before ++ execution :: after →
    ∀ entry ∈ madeBy before execution, ∀ group ∈ (extractReplaceGroups execution.actions).2,
      Disclosed execution.env group entry

/-- Each replacement comes after an open order list of the same execution without the orders it
replaces, under their own ids and under their exchange ids, and finds them terminal. -/
def CancelsConfirmed (env : Env) (made : List Entry) : Prop :=
  ∀ before entry after replaces, made = before ++ entry :: after → tag entry = some replaces →
    (∃ listed ∈ before, ∃ openIds, listed.call = .openOrders replaces.symbol (.ok openIds) ∧
      ∀ oldId ∈ replaces.oldIds, some oldId ∉ openIds ∧
        some (exchangeIdOf env replaces.symbol replaces.side oldId) ∉ openIds) ∧
      AllTerminal replaces.oldIds entry.orders

theorem Confirmed.disclosed {env : Env} {actions : List LifecycleAction} {made : List Entry}
    (h : Confirmed (OfActions actions) made)
    (hdisclosed : ∀ entry ∈ made, ∀ group ∈ (extractReplaceGroups actions).2,
      Disclosed env group entry) : CancelsConfirmed env made := by
  intro before entry after replaces hsplit htag
  obtain ⟨⟨group, hgroup, hof⟩, ⟨listed, hlisted, openIds, hcall, hnone, hover⟩, hterminal⟩ :=
    h before entry after replaces hsplit htag
  refine ⟨⟨listed, hlisted, openIds, hcall, fun oldId hold => ⟨hnone oldId hold, ?_⟩⟩, hterminal⟩
  intro hlists
  have hmade : listed ∈ made := hsplit ▸ List.mem_append_left _ hlisted
  rw [hof.symbol] at hcall
  rw [hof.symbol, hof.side] at hlists
  rcases hdisclosed listed hmade group hgroup openIds hcall oldId (hof.oldIds ▸ hold) hlists with
    hshown | hopen
  · exact hnone oldId hold hshown
  · rw [hover oldId hold] at hopen
    cases hopen

theorem executed_replaced (w : World) (execution : Execution) :
    Replaced (OfActions execution.actions)
      (∀ group ∈ (extractReplaceGroups execution.actions).2, Answered execution.env group) w
      (executed w execution) :=
  Stage4Gate.ends_outcome (replaced_executeWithReport execution.actions)
    { w with orders := execution.orders, freeze := execution.freeze }

/-- What every execution keeps, many keep. -/
theorem replaced_run (w : World) (executions : List Execution) :
    Replaced (fun _ => True) (AllAnswered executions) w (executions.foldl executed w) := by
  induction executions generalizing w with
  | nil => exact refl_of _ w
  | cons execution executions ih =>
    rw [List.foldl_cons]
    have hfirst := (executed_replaced w execution).weaken (fun _ _ => trivial)
      fun hall : AllAnswered (execution :: executions) => hall execution List.mem_cons_self
    have hrest := (ih (executed w execution)).weaken (fun _ h => h)
      fun hall : AllAnswered (execution :: executions) =>
        fun other hother => hall other (List.mem_cons_of_mem _ hother)
    exact trans_of (Replaced (fun _ => True) (AllAnswered (execution :: executions))) hfirst hrest

/-- In every run whose replacements are all settled by their answers and whose open order lists
hide no order that is stored as over: a transaction submits at most once, and only where the
cancels of the orders it replaces are confirmed, and a terminal one stays as it is. -/
theorem replaced_at_most_once (executions : List Execution) (hanswered : AllAnswered executions)
    (hdisclosed : AllDisclosed executions) :
    (∀ replaceTxId, (run executions).calls.countP (tags replaceTxId) ≤ 1) ∧
      (∀ before execution after, executions = before ++ execution :: after →
        (run (before ++ [execution])).calls = (run before).calls ++ madeBy before execution ∧
          CancelsConfirmed execution.env (madeBy before execution) ∧
          Owned (run (before ++ [execution])).replaceTxs (madeBy before execution)) ∧
      ∀ before after, executions = before ++ after →
        Settles (run before).replaceTxs (run executions).replaceTxs := by
  refine ⟨fun replaceTxId => ?_, fun before execution after hsplit => ?_,
    fun before after hsplit => ?_⟩
  · obtain ⟨-, made, hmade, -, hspent⟩ := replaced_run initial executions
    have hcalls : (run executions).calls = made := hmade.trans (List.nil_append made)
    rw [hcalls]
    rcases hspent hanswered replaceTxId with hzero | ⟨hone, -⟩
    · exact hzero ▸ Nat.zero_le 1
    · exact hone.le
  · obtain ⟨-, made, hcalls, ⟨hconfirmed, howned⟩, -⟩ := executed_replaced (run before) execution
    have hrun : run (before ++ [execution]) = executed (run before) execution :=
      run_append before [execution]
    have hmade : madeBy before execution = made := by
      rw [madeBy, hrun, hcalls, List.drop_left]
    have hshown := hdisclosed before execution after hsplit
    rw [hmade] at hshown ⊢
    rw [hrun]
    exact ⟨hcalls, hconfirmed.disclosed hshown, howned⟩
  · rw [hsplit, run_append]
    exact (replaced_run (run before) after).1.1

/-- What a call lists as open, if it lists anything, passes a check. -/
def listingPasses (passes : List (Option String) → Bool) (entry : Entry) : Bool :=
  match entry.call with
  | .openOrders _ (.ok openIds) => passes openIds
  | _ => true

theorem listingPasses_openOrders {passes : List (Option String) → Bool} {entry : Entry}
    {symbol : String} {openIds : List (Option String)}
    (h : entry.call = .openOrders symbol (.ok openIds)) :
    listingPasses passes entry = passes openIds := by
  unfold listingPasses
  rw [h]

/-- Order `a` is replaced by order `b`. -/
def replacePair : List LifecycleAction :=
  [sampleAction .cancel "replace_cancel" "a", sampleAction .submit "replace_submit" "b"]

def replaceExecution (answer : Except Exc String) (orders : List OrderRow) : Execution :=
  ⟨sampleSettings, sampleEnv answer (.ok true), replacePair, orders, ⟨false, none⟩⟩

def acknowledgedOnce : List Execution :=
  [replaceExecution (.ok "ex") [sampleRow 1 "a" .canceled]]

theorem replaced_at_most_once_acknowledged :
    (∀ replaceTxId, (run acknowledgedOnce).calls.countP (tags replaceTxId) ≤ 1) ∧
      (∀ before execution after, acknowledgedOnce = before ++ execution :: after →
        (run (before ++ [execution])).calls = (run before).calls ++ madeBy before execution ∧
          CancelsConfirmed execution.env (madeBy before execution) ∧
          Owned (run (before ++ [execution])).replaceTxs (madeBy before execution)) ∧
      ∀ before after, acknowledgedOnce = before ++ after →
        Settles (run before).replaceTxs (run acknowledgedOnce).replaceTxs := by
  refine replaced_at_most_once acknowledgedOnce (fun execution hexecution group _ n order _ => ?_)
    fun before execution after hsplit entry hentry group _ openIds hcall oldId _ hin => ?_
  · cases List.mem_singleton.mp hexecution
    trivial
  · have hempty : (madeBy [] (replaceExecution (.ok "ex") [sampleRow 1 "a" .canceled])).all
        (listingPasses List.isEmpty) = true := by decide +kernel
    rw [acknowledgedOnce, List.singleton_eq_append_iff] at hsplit
    rcases hsplit with ⟨rfl, hrest⟩ | ⟨-, hrest⟩
    · obtain ⟨rfl, -⟩ := List.cons.inj hrest
      have hlisted := List.all_eq_true.mp hempty entry hentry
      rw [listingPasses_openOrders hcall] at hlisted
      rw [List.isEmpty_iff.mp hlisted] at hin
      cases hin
    · cases hrest

def timedOut : Execution :=
  replaceExecution (.error (.timeoutException "timeout")) [sampleRow 1 "a" .canceled]

/-- The call after the one that timed out, on the orders that one left. -/
def timedOutAgain : Execution :=
  replaceExecution (.error (.timeoutException "timeout")) (run [timedOut]).orders

/-- The open orders list order `a` under its exchange id. -/
def listingEnv : Env :=
  { sampleEnv (.ok "ex") (.ok true) with
    listOpenOrders := fun _ symbol => .ok [some (exchangeIdOf (sampleEnv (.ok "ex") (.ok true))
      symbol "buy" "a")] }

def listed : Execution :=
  ⟨sampleSettings, listingEnv, replacePair, [sampleRow 1 "a" .unknownClosed], ⟨false, none⟩⟩

/-- A submission that timed out is made again by the next call, and an order that is stored as
closed is replaced while it is open under its exchange id. -/
theorem timed_out_submitted_twice :
    ((run [timedOut, timedOutAgain]).calls.countP (tags "rpl:0123456789abcdef01234567") = 2 ∧
      ¬ ∀ replaceTxId,
        (run [timedOut, timedOutAgain]).calls.countP (tags replaceTxId) ≤ 1) ∧
      (run [listed]).calls.countP (tags "rpl:0123456789abcdef01234567") = 1 ∧
        ∀ entry ∈ (run [listed]).calls, ∀ openIds,
          entry.call = .openOrders "BTCTRY" (.ok openIds) →
            some (exchangeIdOf listingEnv "BTCTRY" "buy" "a") ∈ openIds := by
  have htwice : (run [timedOut, timedOutAgain]).calls.countP
      (tags "rpl:0123456789abcdef01234567") = 2 := by decide +kernel
  have hlists : (run [listed]).calls.all (listingPasses fun openIds =>
      openIds.contains (some (exchangeIdOf listingEnv "BTCTRY" "buy" "a"))) = true := by
    decide +kernel
  refine ⟨⟨htwice, fun h => ?_⟩, by decide +kernel, fun entry hentry openIds hcall => ?_⟩
  · have hone := h "rpl:0123456789abcdef01234567"
    omega
  · have hin := List.all_eq_true.mp hlists entry hentry
    rw [listingPasses_openOrders hcall] at hin
    exact List.contains_iff_mem.mp hin

end Runs

end Stage4Replace
