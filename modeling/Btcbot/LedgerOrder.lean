import Btcbot.Ledger

/-!
# Events that may be folded late

Two events commute unless they trade the same symbol, one sells what the other
adjusts, or both pay a fee in the rounded currency. Under the default policy the
rounded currency is TRY, and two fees on its unit still commute.
-/
namespace LedgerOrder

open PyData Money Ledger Grid
open SortedFold (Commute Keeps both)

/-- One symbol's part of the reducer. -/
def cellStep (event : LedgerEvent) (current : SymbolLedger) : Option SymbolLedger :=
  (applyFill (policyFor none event.symbol) event current).toOption.map fun filled =>
    { applyAdjustment event filled with symbol := event.symbol }

def symbolsStep (symbols : Dict SymbolLedger) (event : LedgerEvent) :
    Option (Dict SymbolLedger) :=
  (cellStep event (symbols.getD event.symbol { symbol := event.symbol })).map
    (symbols.insert event.symbol)

def feesStep (fees : Dict ℚ) (event : LedgerEvent) : Option (Dict ℚ) :=
  (applyFee (policyFor none event.symbol) event fees).toOption

/-- The reducer's step with its error forgotten. -/
def reduce (state : LedgerState) (event : LedgerEvent) : Option LedgerState :=
  (applyEvent none state event).toOption

theorem reduce_eq_both (state : LedgerState) (event : LedgerEvent) :
    reduce state event =
      (both symbolsStep feesStep (state.symbols, state.feesByCurrency) event).map
        fun s => ⟨s.1, s.2⟩ := by
  simp only [reduce, applyEvent, both, symbolsStep, feesStep, cellStep, LedgerState.ledger]
  cases applyFill (policyFor none event.symbol) event
      (state.symbols.getD event.symbol { symbol := event.symbol }) with
  | error e => rfl
  | ok filled =>
    cases applyFee (policyFor none event.symbol) event state.feesByCurrency with
    | error e => rfl
    | ok fees => rfl

section Symbols

def adjusts (event : LedgerEvent) : Bool := event.type = .adjustment && event.fee.isSome

def trades (event : LedgerEvent) : Bool := (trade (policyFor none event.symbol) event).isSome

def sells (event : LedgerEvent) : Bool :=
  match trade (policyFor none event.symbol) event with
  | some (.sell _ _) => true
  | _ => false

/-- Folding the two in the other order may leave other lots or another profit. -/
def PositionClash (a b : LedgerEvent) : Prop :=
  a.symbol = b.symbol ∧
    (trades a ∧ trades b ∨ sells a ∧ adjusts b ∨ adjusts a ∧ sells b)

instance (a b : LedgerEvent) : Decidable (PositionClash a b) :=
  inferInstanceAs (Decidable (_ ∧ _))

theorem cellStep_renamed (event : LedgerEvent) (current : SymbolLedger) (name : String) :
    cellStep event { current with symbol := name } = cellStep event current := by
  simp only [cellStep]
  cases ht : trade (policyFor none event.symbol) event with
  | none =>
    simp only [applyFill_none ht, applyAdjustment, Except.toOption, Option.map_some]
    split <;> rfl
  | some t =>
    have hty := trade_fill ht
    cases t with
    | buy lot => simp [applyFill_buy ht, applyAdjustment, hty, Except.toOption]
    | sell qty price =>
      simp only [applyFill_sell ht, applyAdjustment, hty]
      split <;> rfl

theorem cellStep_symbol {event : LedgerEvent} {current next : SymbolLedger}
    (h : cellStep event current = some next) : next.symbol = event.symbol := by
  simp only [cellStep, Option.map_eq_some_iff] at h
  obtain ⟨filled, -, rfl⟩ := h
  rfl

theorem cellStep_idle {event : LedgerEvent} (ht : trades event = false)
    (ha : adjusts event = false) (current : SymbolLedger) :
    cellStep event current = some { current with symbol := event.symbol } := by
  have ht : trade (policyFor none event.symbol) event = none := by
    simpa [trades] using ht
  have hsame : applyAdjustment event current = current := by
    simp only [applyAdjustment]
    split
    · next fee hty hf => simp [adjusts, hty, hf] at ha
    · rfl
  simp [cellStep, applyFill_none ht, hsame, Except.toOption]

theorem cellStep_adjust {event : LedgerEvent} (ha : adjusts event = true) :
    ∃ fee, ∀ current, cellStep event current = some
      { current with symbol := event.symbol, realizedPnl := current.realizedPnl + fee } := by
  simp only [adjusts, Bool.and_eq_true, decide_eq_true_eq, Option.isSome_iff_exists] at ha
  obtain ⟨hty, fee, hf⟩ := ha
  have ht : trade (policyFor none event.symbol) event = none := by simp [trade, hty]
  exact ⟨fee, fun current => by
    simp [cellStep, applyFill_none ht, applyAdjustment, hty, hf, Except.toOption]⟩

theorem cellStep_buy {event : LedgerEvent} (ht : trades event = true) (hs : sells event = false) :
    ∃ lot, ∀ current, cellStep event current = some
      { current with symbol := event.symbol, lots := current.lots ++ [lot] } := by
  simp only [trades, Option.isSome_iff_exists] at ht
  obtain ⟨t, ht⟩ := ht
  cases t with
  | buy lot =>
    have hty := trade_fill ht
    exact ⟨lot, fun current => by
      simp [cellStep, applyFill_buy ht, applyAdjustment, hty, Except.toOption]⟩
  | sell qty price => simp [sells, ht] at hs

theorem cellStep_idle_comm {a b : LedgerEvent} (hs : a.symbol = b.symbol)
    (ht : trades a = false) (ha : adjusts a = false) (current : SymbolLedger) :
    (cellStep a current).bind (cellStep b) = (cellStep b current).bind (cellStep a) := by
  rw [cellStep_idle ht ha, Option.bind_some, cellStep_renamed]
  cases hb : cellStep b current with
  | none => rfl
  | some next =>
    have hsym := cellStep_symbol hb
    rw [Option.bind_some, cellStep_idle ht ha, hs, ← hsym]

/-- On one symbol, what does not clash commutes. -/
theorem cellStep_comm {a b : LedgerEvent} (hs : a.symbol = b.symbol)
    (h : ¬ PositionClash a b) (current : SymbolLedger) :
    (cellStep a current).bind (cellStep b) = (cellStep b current).bind (cellStep a) := by
  by_cases hidle : trades a = false ∧ adjusts a = false
  · exact cellStep_idle_comm hs hidle.1 hidle.2 current
  by_cases hidle' : trades b = false ∧ adjusts b = false
  · exact (cellStep_idle_comm hs.symm hidle'.1 hidle'.2 current).symm
  -- what is left: an adjustment against an adjustment or against a buy
  have hclash : ¬ (trades a ∧ trades b ∨ sells a ∧ adjusts b ∨ adjusts a ∧ sells b) :=
    fun hc => h ⟨hs, hc⟩
  cases hta : trades a with
  | true =>
    have htb : trades b = false := by
      cases htb : trades b with
      | false => rfl
      | true => exact absurd (.inl ⟨hta, htb⟩) hclash
    have hab : adjusts b = true := by
      cases hab : adjusts b with
      | true => rfl
      | false => exact absurd ⟨htb, hab⟩ hidle'
    have hsa : sells a = false := by
      cases hsa : sells a with
      | false => rfl
      | true => exact absurd (.inr (.inl ⟨hsa, hab⟩)) hclash
    obtain ⟨lot, hlot⟩ := cellStep_buy hta hsa
    obtain ⟨fee, hfee⟩ := cellStep_adjust hab
    simp [hlot, hfee, hs]
  | false =>
    have haa : adjusts a = true := by
      cases haa : adjusts a with
      | true => rfl
      | false => exact absurd ⟨hta, haa⟩ hidle
    obtain ⟨fee, hfee⟩ := cellStep_adjust haa
    cases htb : trades b with
    | true =>
      have hsb : sells b = false := by
        cases hsb : sells b with
        | false => rfl
        | true => exact absurd (.inr (.inr ⟨haa, hsb⟩)) hclash
      obtain ⟨lot, hlot⟩ := cellStep_buy htb hsb
      simp [hlot, hfee, hs]
    | false =>
      have hab : adjusts b = true := by
        cases hab : adjusts b with
        | true => rfl
        | false => exact absurd ⟨htb, hab⟩ hidle'
      obtain ⟨other, hother⟩ := cellStep_adjust hab
      simp [hother, hfee, hs, add_right_comm]

theorem symbolsStep_commute {a b : LedgerEvent} (h : ¬ PositionClash a b) :
    Commute symbolsStep (fun _ => True) a b := by
  intro d _
  by_cases hs : a.symbol = b.symbol
  · have hcell := cellStep_comm hs h (d.getD a.symbol { symbol := a.symbol })
    simp only [symbolsStep, ← hs]
    have hleft : ∀ e f : LedgerEvent, f.symbol = e.symbol →
        ((cellStep e (d.getD e.symbol { symbol := e.symbol })).map (d.insert e.symbol)).bind
          (fun t => (cellStep f (t.getD e.symbol { symbol := e.symbol })).map
            (t.insert e.symbol)) =
        ((cellStep e (d.getD e.symbol { symbol := e.symbol })).bind (cellStep f)).map
          (d.insert e.symbol) := by
      intro e f hef
      cases hc : cellStep e (d.getD e.symbol { symbol := e.symbol }) with
      | none => rfl
      | some x =>
        simp only [Option.map_some, Option.bind_some, Std.ExtTreeMap.getD_insert_self]
        cases cellStep f x with
        | none => rfl
        | some y => simp [Dict.insert_insert]
    rw [hleft a b hs.symm, hcell, hs, hleft b a hs]
  · simp only [symbolsStep]
    have hne : ∀ (x : SymbolLedger) (e f : LedgerEvent), e.symbol ≠ f.symbol →
        (d.insert e.symbol x).getD f.symbol { symbol := f.symbol } =
          d.getD f.symbol { symbol := f.symbol } := by
      intro x e f hef
      simp [Std.ExtTreeMap.getD_insert, hef]
    cases hca : cellStep a (d.getD a.symbol { symbol := a.symbol }) with
    | none =>
      cases hcb : cellStep b (d.getD b.symbol { symbol := b.symbol }) with
      | none => rfl
      | some y => simp [hne y b a (Ne.symm hs), hca]
    | some x =>
      cases hcb : cellStep b (d.getD b.symbol { symbol := b.symbol }) with
      | none => simp [hne x a b hs, hcb]
      | some y => simp [hne x a b hs, hne y b a (Ne.symm hs), hca, hcb, Dict.insert_comm d hs]

end Symbols

section Fees

/-- The fee an event pays in the currency that is rounded. -/
def tryFee (event : LedgerEvent) : Option ℚ :=
  match event.type, event.fee, event.feeCurrency with
  | .fee, some fee, some feeCurrency => if feeCurrency.toUpper = "TRY" then some fee else none
  | _, _, _ => none

/-- Rounding does not move the fee. -/
def FeeUnit (fee : ℚ) : Prop := roundFee fee defaultMoneyPolicy = fee

instance (fee : ℚ) : Decidable (FeeUnit fee) := inferInstanceAs (Decidable (_ = _))

def FeeClash (a b : LedgerEvent) : Prop :=
  ∃ x ∈ tryFee a, ∃ y ∈ tryFee b, ¬ (FeeUnit x ∧ FeeUnit y)

instance (a b : LedgerEvent) : Decidable (FeeClash a b) := by
  unfold FeeClash
  infer_instance

/-- The accumulated TRY fee lies on its unit. -/
def FeesOnUnit (fees : Dict ℚ) : Prop := FeeUnit (fees.getD "TRY" 0)

theorem feeUnit_iff (fee : ℚ) :
    FeeUnit fee ↔ OnGrid (quantum defaultMoneyPolicy.feePrecision) fee := by
  constructor
  · intro h
    rw [← show roundFee fee defaultMoneyPolicy = fee from h]
    exact snap_onGrid _ _ _
  · intro h
    exact defaultMoneyPolicy.rounding.2.snap_of_onGrid (quantum_pos _).ne' h

theorem feeUnit_roundFee (fee : ℚ) : FeeUnit (roundFee fee defaultMoneyPolicy) :=
  (feeUnit_iff _).mpr (snap_onGrid _ _ _)

theorem FeeUnit.roundFee_add {x y : ℚ} (hx : FeeUnit x) (hy : FeeUnit y) :
    roundFee (x + y) defaultMoneyPolicy = x + y :=
  (feeUnit_iff _).mpr (((feeUnit_iff x).mp hx).add ((feeUnit_iff y).mp hy))

/-- What an event does to the fees: nothing, an error, or one accumulation. -/
theorem feesStep_cases (event : LedgerEvent) :
    (∀ fees, feesStep fees event = none) ∨ (∀ fees, feesStep fees event = some fees) ∨
    (∃ x, tryFee event = some x ∧ ∀ fees, feesStep fees event =
      some (fees.insert "TRY" (roundFee (fees.getD "TRY" 0 + x) defaultMoneyPolicy))) ∨
    (∃ currency x, currency ≠ "TRY" ∧ ∀ fees, feesStep fees event =
      some (fees.insert currency (fees.getD currency 0 + x))) := by
  simp only [feesStep, applyFee]
  split
  · next fee feeCurrency hty hf hc =>
    by_cases hempty : feeCurrency = ""
    · refine .inr (.inl fun fees => ?_)
      rw [if_pos hempty]
      rfl
    by_cases hbad : event.side ≠ none ∨ event.qty ≠ 0 ∨ event.price ≠ none
    · refine .inl fun fees => ?_
      rw [if_neg hempty, if_pos hbad]
      rfl
    by_cases htry : feeCurrency.toUpper = "TRY"
    · refine .inr (.inr (.inl ⟨fee, by rw [tryFee, hty, hf, hc]; exact if_pos htry, fun fees => ?_⟩))
      rw [if_neg hempty, if_neg hbad, htry]
      rfl
    · refine .inr (.inr (.inr ⟨feeCurrency.toUpper, fee, htry, fun fees => ?_⟩))
      rw [if_neg hempty, if_neg hbad, if_neg htry]
      rfl
  · exact .inr (.inl fun fees => rfl)

theorem feesStep_keeps : Keeps feesStep FeesOnUnit := by
  intro fees event next h hstep
  rcases feesStep_cases event with he | he | ⟨x, -, he⟩ | ⟨currency, x, hc, he⟩
  · rw [he] at hstep
    cases hstep
  · rw [he] at hstep
    cases hstep
    exact h
  · rw [he] at hstep
    cases hstep
    simp only [FeesOnUnit, Std.ExtTreeMap.getD_insert_self]
    exact feeUnit_roundFee _
  · rw [he] at hstep
    cases hstep
    simpa [FeesOnUnit, Std.ExtTreeMap.getD_insert, hc] using h

/-- Two accumulations commute in two currencies, and in one where their sums do. -/
theorem accumulate_comm (fees : Dict ℚ) (c d : String) (f g : ℚ → ℚ)
    (h : c = d → f (g (fees.getD c 0)) = g (f (fees.getD c 0))) :
    (fees.insert c (f (fees.getD c 0))).insert d
        (g ((fees.insert c (f (fees.getD c 0))).getD d 0)) =
      (fees.insert d (g (fees.getD d 0))).insert c
        (f ((fees.insert d (g (fees.getD d 0))).getD c 0)) := by
  by_cases hcd : c = d
  · subst hcd
    simp [Dict.insert_insert, h rfl]
  · simp [Std.ExtTreeMap.getD_insert, hcd, Ne.symm hcd, Dict.insert_comm fees hcd]

theorem feesStep_commute {a b : LedgerEvent} (h : ¬ FeeClash a b) :
    Commute feesStep FeesOnUnit a b := by
  intro fees hunit
  rcases feesStep_cases a with ha | ha | ⟨x, htx, ha⟩ | ⟨c, x, hc, ha⟩
  · simp [ha]
  · simp [ha]
  · rcases feesStep_cases b with hb | hb | ⟨y, hty, hb⟩ | ⟨d, y, hd, hb⟩
    · simp [hb]
    · simp [hb]
    · have hxy : FeeUnit x ∧ FeeUnit y := by
        by_contra hno
        exact h ⟨x, htx, y, hty, hno⟩
      rw [ha, hb, Option.bind_some, Option.bind_some, ha, hb, Option.some.injEq]
      refine accumulate_comm fees "TRY" "TRY" (fun fee => roundFee (fee + x) defaultMoneyPolicy)
        (fun fee => roundFee (fee + y) defaultMoneyPolicy) fun _ => ?_
      have hfx := FeeUnit.roundFee_add hunit hxy.1
      have hfy := FeeUnit.roundFee_add hunit hxy.2
      simp only [hfx, hfy]
      rw [add_right_comm]
    · rw [ha, hb, Option.bind_some, Option.bind_some, ha, hb, Option.some.injEq]
      exact accumulate_comm fees "TRY" d (fun fee => roundFee (fee + x) defaultMoneyPolicy)
        (fun fee => fee + y) fun hcd => absurd hcd.symm hd
  · rcases feesStep_cases b with hb | hb | ⟨y, -, hb⟩ | ⟨d, y, -, hb⟩
    · simp [hb]
    · simp [hb]
    · rw [ha, hb, Option.bind_some, Option.bind_some, ha, hb, Option.some.injEq]
      exact accumulate_comm fees c "TRY" (fun fee => fee + x)
        (fun fee => roundFee (fee + y) defaultMoneyPolicy) fun hcd => absurd hcd hc
    · rw [ha, hb, Option.bind_some, Option.bind_some, ha, hb, Option.some.injEq]
      exact accumulate_comm fees c d (fun fee => fee + x) (fun fee => fee + y)
        fun _ => add_right_comm _ _ _

end Fees

/-- The pairs whose order the reducer may see. -/
def Clash (a b : LedgerEvent) : Prop := PositionClash a b ∨ FeeClash a b

instance (a b : LedgerEvent) : Decidable (Clash a b) := inferInstanceAs (Decidable (_ ∨ _))

def Reduced (state : LedgerState) : Prop := FeesOnUnit state.feesByCurrency

theorem reduce_keeps : Keeps reduce Reduced := by
  intro state event next h hstep
  rw [reduce_eq_both, Option.map_eq_some_iff] at hstep
  obtain ⟨s, hboth, rfl⟩ := hstep
  simp only [both, Option.bind_eq_some_iff, Option.map_eq_some_iff] at hboth
  obtain ⟨symbols, -, fees, hfees, rfl⟩ := hboth
  exact feesStep_keeps _ event fees h hfees

theorem reduce_bind (state : LedgerState) (a b : LedgerEvent) :
    (reduce state a).bind (fun t => reduce t b) =
      ((both symbolsStep feesStep (state.symbols, state.feesByCurrency) a).bind
        (fun t => both symbolsStep feesStep t b)).map fun s => ⟨s.1, s.2⟩ := by
  rw [reduce_eq_both]
  cases both symbolsStep feesStep (state.symbols, state.feesByCurrency) a with
  | none => rfl
  | some s =>
    simp only [Option.map_some, Option.bind_some]
    exact reduce_eq_both ⟨s.1, s.2⟩ b

theorem reduce_commute {a b : LedgerEvent} (h : ¬ Clash a b) : Commute reduce Reduced a b := by
  have hsymbols : Commute symbolsStep (fun _ => True) a b :=
    symbolsStep_commute fun hc => h (.inl hc)
  have hfees : Commute feesStep FeesOnUnit a b := feesStep_commute fun hc => h (.inr hc)
  intro state hstate
  rw [reduce_bind, reduce_bind]
  exact congrArg _ (hsymbols.both hfees (state.symbols, state.feesByCurrency) ⟨trivial, hstate⟩)

theorem reduced_empty : Reduced {} := by
  simp [Reduced, FeesOnUnit, feeUnit_iff, OnGrid.zero]

/-- The reducer over a list of events, successes only. -/
theorem applyEvents_toOption (state : LedgerState) (events : List LedgerEvent) :
    (applyEvents state events none).toOption = (sortEvents events).foldlM reduce state :=
  SortedFold.toOption_foldlM (applyEvent none) (sortEvents events) state

end LedgerOrder
