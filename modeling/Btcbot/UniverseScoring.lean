import Btcbot.Ranking
import Btcbot.UniverseSelection
import Mathlib.Data.Prod.Lex

/-!
# The scores the universe is ranked by

Each symbol is scored on its volume, its spread and its volatility against all the others,
and the weighted scores rank it. A symbol that improves moves the bounds the others are
scored in, and still loses none of its places.
-/
namespace UniverseScoring

open PyData UniverseSelection Ranking

section Data

structure RawMetrics where
  volumeTry : Option ℚ
  spreadBps : Option ℚ
  volatility : Option ℚ
  ageSec : Option ℚ
  deriving DecidableEq, Repr

abbrev Rows := List (String × RawMetrics)

/-- What a call finds at the exchange of the symbols it discovered. -/
structure Observed where
  now : Instant
  freezeReasons : List FreezeReason
  discoveryExclusions : Dict ℕ
  rawMetrics : Rows
  canonical : ∀ row ∈ rawMetrics, canonicalSymbol row.1 = row.1
  distinct : (rawMetrics.map Prod.fst).Nodup

structure Weights where
  liquidity : ℚ
  spread : ℚ
  volatility : ℚ
  deriving DecidableEq, Repr

def missingMetricPenalty : ℚ := -1

def defaultWeights : Weights := ⟨1 / 2, 3 / 10, 1 / 5⟩

end Data

section Scores

def computeSpreadBps (bestBid bestAsk : ℚ) : Option ℚ :=
  if bestBid ≤ 0 ∨ bestAsk ≤ 0 ∨ bestAsk < bestBid then none
  else
    let mid := (bestBid + bestAsk) / 2
    if mid ≤ 0 then none else some ((bestAsk - bestBid) / mid * 10000)

/-- The weights add up to one, unless those configured do not add up to anything. -/
def resolveWeights (stage7ScoreWeights : Option (Dict ℚ)) : Weights :=
  let configured := stage7ScoreWeights.getD ∅
  let liquidity := configured["liquidity"]?.getD defaultWeights.liquidity
  let spread := configured["spread"]?.getD defaultWeights.spread
  let volatility := configured["volatility"]?.getD defaultWeights.volatility
  let total := liquidity + spread + volatility
  if total ≤ 0 then defaultWeights
  else ⟨liquidity / total, spread / total, volatility / total⟩

def normalizeLinear (value : Option ℚ) (low high : ℚ) : ℚ :=
  match value with
  | none => missingMetricPenalty
  | some value => if high ≤ low then 1 else (value - low) / (high - low)

def normalizeInverse (value : Option ℚ) (low high : ℚ) : ℚ :=
  match value with
  | none => missingMetricPenalty
  | some value => if high ≤ low then 1 else 1 - (value - low) / (high - low)

def values (metric : RawMetrics → Option ℚ) (rawMetrics : Rows) : List ℚ :=
  rawMetrics.filterMap fun row => metric row.2

def liquidityScore (rawMetrics : Rows) (metrics : RawMetrics) : ℚ :=
  let liquidity := bounds (values RawMetrics.volumeTry rawMetrics)
  normalizeLinear metrics.volumeTry liquidity.1 liquidity.2

def spreadScore (rawMetrics : Rows) (metrics : RawMetrics) : ℚ :=
  let spread := bounds (values RawMetrics.spreadBps rawMetrics)
  normalizeInverse metrics.spreadBps spread.1 spread.2

def volatilityScore (rawMetrics : Rows) (metrics : RawMetrics) : ℚ :=
  let volatility := bounds (values RawMetrics.volatility rawMetrics)
  normalizeInverse metrics.volatility volatility.1 volatility.2

def totalScore (weights : Weights) (rawMetrics : Rows) (metrics : RawMetrics) : ℚ :=
  liquidityScore rawMetrics metrics * weights.liquidity +
    spreadScore rawMetrics metrics * weights.spread +
    volatilityScore rawMetrics metrics * weights.volatility

def scoreCandidate (weights : Weights) (rawMetrics : Rows) (row : String × RawMetrics) :
    UniverseCandidate where
  symbol := row.1
  liquidityScore := liquidityScore rawMetrics row.2
  spreadScore := spreadScore rawMetrics row.2
  volatilityScore := volatilityScore rawMetrics row.2
  totalScore := totalScore weights rawMetrics row.2
  volumeTry := row.2.volumeTry
  spreadBps := row.2.spreadBps

def rankKey (candidate : UniverseCandidate) : ℚ ×ₗ String :=
  toLex (-candidate.totalScore, candidate.symbol)

def RankedBefore (a b : UniverseCandidate) : Prop := rankKey a ≤ rankKey b

instance rankedBefore_decidable : DecidableRel RankedBefore := fun a b =>
  inferInstanceAs (Decidable (rankKey a ≤ rankKey b))

instance rankedBefore_total : Std.Total RankedBefore :=
  ⟨fun a b => le_total (rankKey a) (rankKey b)⟩

instance rankedBefore_trans : IsTrans UniverseCandidate RankedBefore :=
  ⟨fun _ _ _ h h' => le_trans h h'⟩

def scoreCandidates (weights : Weights) (rawMetrics : Rows) : List UniverseCandidate :=
  (rawMetrics.map (scoreCandidate weights rawMetrics)).insertionSort RankedBefore

theorem scoreCandidates_perm (weights : Weights) (rawMetrics : Rows) :
    (scoreCandidates weights rawMetrics).Perm
      (rawMetrics.map (scoreCandidate weights rawMetrics)) :=
  List.perm_insertionSort RankedBefore _

theorem scoreCandidates_symbols (weights : Weights) (rawMetrics : Rows) :
    ((scoreCandidates weights rawMetrics).map UniverseCandidate.symbol).Perm
      (rawMetrics.map Prod.fst) := by
  have h := (scoreCandidates_perm weights rawMetrics).map UniverseCandidate.symbol
  rw [List.map_map] at h
  exact h

end Scores

section Calls

/-- An orderbook of no known age is stale, as one too old is. -/
def staleDetected (stage7MaxDataAgeSec : ℚ) (rawMetrics : Rows) : Bool :=
  rawMetrics.any fun row => row.2.ageSec.all fun age => stage7MaxDataAgeSec < age

theorem scored_canonical (weights : Weights) (observed : Observed) :
    ∀ candidate ∈ scoreCandidates weights observed.rawMetrics,
      canonicalSymbol candidate.symbol = candidate.symbol := by
  intro candidate hcandidate
  obtain ⟨row, hrow, rfl⟩ :=
    List.mem_map.mp ((scoreCandidates_perm weights observed.rawMetrics).mem_iff.mp hcandidate)
  exact observed.canonical row hrow

theorem scored_distinct (weights : Weights) (observed : Observed) :
    ((scoreCandidates weights observed.rawMetrics).map UniverseCandidate.symbol).Nodup :=
  (scoreCandidates_symbols weights observed.rawMetrics).nodup_iff.mpr observed.distinct

/-- The call a selection makes of what it observed. -/
def callOf (stage7ScoreWeights : Option (Dict ℚ)) (stage7MaxDataAgeSec : ℚ)
    (observed : Observed) : Call where
  now := observed.now
  freezeReasons := observed.freezeReasons ++
    if staleDetected stage7MaxDataAgeSec observed.rawMetrics then [.staleData] else []
  discoveryExclusions := observed.discoveryExclusions
  scored := scoreCandidates (resolveWeights stage7ScoreWeights) observed.rawMetrics
  canonical := scored_canonical (resolveWeights stage7ScoreWeights) observed
  distinct := scored_distinct (resolveWeights stage7ScoreWeights) observed

end Calls

section Bounds

variable (metric : RawMetrics → Option ℚ)

theorem normalizeLinear_eq (value : Option ℚ) (low high : ℚ) :
    normalizeLinear value low high = score (-1) low high value := by
  cases value <;> rfl

theorem normalizeInverse_eq (value : Option ℚ) (low high : ℚ) :
    normalizeInverse value low high = score (-1) (-high) (-low) (value.map Neg.neg) := by
  cases value with
  | none => rfl
  | some v => exact standing_neg.symm

theorem values_neg (rawMetrics : Rows) :
    values (fun metrics => (metric metrics).map Neg.neg) rawMetrics =
      (values metric rawMetrics).map Neg.neg := by
  unfold values
  rw [List.map_filterMap]

/-- The bounds of the values negated. -/
theorem bounded_neg {vs : List ℚ} {low high : ℚ} (h : Bounded {v | v ∈ vs} low high) :
    Bounded {v | v ∈ vs.map Neg.neg} (-high) (-low) := by
  rintro ⟨v, hv⟩
  obtain ⟨u, hu, -⟩ := List.mem_map.mp hv
  obtain ⟨⟨hlow, hleast⟩, hhigh, hgreatest⟩ := h ⟨u, hu⟩
  refine ⟨⟨List.mem_map_of_mem hhigh, ?_⟩, List.mem_map_of_mem hlow, ?_⟩
  · intro w hw
    obtain ⟨x, hx, rfl⟩ := List.mem_map.mp hw
    exact neg_le_neg (hgreatest hx)
  · intro w hw
    obtain ⟨x, hx, rfl⟩ := List.mem_map.mp hw
    exact neg_le_neg (hleast hx)

theorem mem_values {rawMetrics : Rows} {row : String × RawMetrics} (hrow : row ∈ rawMetrics)
    {v : ℚ} (hv : v ∈ metric row.2) : v ∈ values metric rawMetrics :=
  List.mem_filterMap.mpr ⟨row, hrow, hv⟩

end Bounds

section Improved

/-- Nothing known before is lost, and no value is worse. -/
structure NoWorse (before after : RawMetrics) : Prop where
  volumeTry : AtLeast before.volumeTry after.volumeTry
  spreadBps : ∀ v ∈ before.spreadBps, ∃ w ∈ after.spreadBps, w ≤ v
  volatility : ∀ v ∈ before.volatility, ∃ w ∈ after.volatility, w ≤ v

def withMetrics (rawMetrics : Rows) (symbol : String) (metrics : RawMetrics) : Rows :=
  rawMetrics.map fun row => (row.1, if row.1 = symbol then metrics else row.2)

def othersOf (rawMetrics : Rows) (symbol : String) : Rows :=
  rawMetrics.filter fun row => row.1 ≠ symbol

variable {rawMetrics : Rows} {symbol : String} {before after : RawMetrics}

theorem withMetrics_symbols (rawMetrics : Rows) (symbol : String) (metrics : RawMetrics) :
    (withMetrics rawMetrics symbol metrics).map Prod.fst = rawMetrics.map Prod.fst := by
  simp [withMetrics, Function.comp_def]

theorem withMetrics_others (rawMetrics : Rows) (symbol : String) (metrics : RawMetrics) :
    othersOf (withMetrics rawMetrics symbol metrics) symbol = othersOf rawMetrics symbol := by
  unfold othersOf withMetrics
  induction rawMetrics with
  | nil => rfl
  | cons row rest ih =>
    by_cases heq : row.1 = symbol
    · simpa [heq] using ih
    · simpa [heq] using ih

theorem withMetrics_mem (hrow : (symbol, before) ∈ rawMetrics) (metrics : RawMetrics) :
    (symbol, metrics) ∈ withMetrics rawMetrics symbol metrics :=
  List.mem_map.mpr ⟨(symbol, before), hrow, by rw [if_pos rfl]⟩

theorem row_unique (hdistinct : (rawMetrics.map Prod.fst).Nodup)
    (hrow : (symbol, before) ∈ rawMetrics) {row : String × RawMetrics}
    (hmem : row ∈ rawMetrics) (heq : row.1 = symbol) : row = (symbol, before) :=
  List.inj_on_of_nodup_map hdistinct hmem hrow heq

theorem values_joined (metric : RawMetrics → Option ℚ)
    (hdistinct : (rawMetrics.map Prod.fst).Nodup) (hrow : (symbol, before) ∈ rawMetrics) :
    {v | v ∈ values metric rawMetrics} =
      joined {v | v ∈ values metric (othersOf rawMetrics symbol)} (metric before) := by
  have hothers {v : ℚ} (h : v ∈ values metric (othersOf rawMetrics symbol)) :
      v ∈ values metric rawMetrics := by
    obtain ⟨row, hmem, hv⟩ := List.mem_filterMap.mp h
    exact mem_values metric (List.mem_of_mem_filter hmem) hv
  have hsplit {v : ℚ} (h : v ∈ values metric rawMetrics) :
      metric before = some v ∨ v ∈ values metric (othersOf rawMetrics symbol) := by
    obtain ⟨row, hmem, hv⟩ := List.mem_filterMap.mp h
    by_cases heq : row.1 = symbol
    · rw [row_unique hdistinct hrow hmem heq] at hv
      exact .inl hv
    · exact .inr (mem_values metric (List.mem_filter.mpr ⟨hmem, decide_eq_true heq⟩) hv)
  ext v
  simp only [Set.mem_ofPred_eq]
  cases hmetric : metric before with
  | none =>
    constructor
    · intro h
      rcases hsplit h with hsome | hin
      · rw [hmetric] at hsome
        cases hsome
      · exact hin
    · exact hothers
  | some u =>
    constructor
    · intro h
      rcases hsplit h with hsome | hin
      · rw [hmetric] at hsome
        exact .inl (Option.some.inj hsome).symm
      · exact .inr hin
    · rintro (rfl | hin)
      · exact mem_values metric hrow hmetric
      · exact hothers hin

theorem score_gap (metric : RawMetrics → Option ℚ)
    (hdistinct : (rawMetrics.map Prod.fst).Nodup) (hrow : (symbol, before) ∈ rawMetrics)
    {other : String × RawMetrics} (hother : other ∈ rawMetrics) (hne : other.1 ≠ symbol)
    (himproved : AtLeast (metric before) (metric after)) {low high low' high' : ℚ}
    (h : Bounded {v | v ∈ values metric rawMetrics} low high)
    (h' : Bounded {v | v ∈ values metric (withMetrics rawMetrics symbol after)} low' high') :
    score (-1) low high (metric before) - score (-1) low high (metric other.2) ≤
      score (-1) low' high' (metric after) - score (-1) low' high' (metric other.2) := by
  rw [values_joined metric hdistinct hrow] at h
  rw [values_joined metric ((withMetrics_symbols rawMetrics symbol after).symm ▸ hdistinct)
    (withMetrics_mem hrow after), withMetrics_others] at h'
  refine score_gap_mono le_rfl (bounds_bounded _) h h' (fun v hv => ?_) himproved
  exact mem_values metric (List.mem_filter.mpr ⟨hother, decide_eq_true hne⟩) hv

theorem inverse_gap {metric : RawMetrics → Option ℚ}
    (hdistinct : (rawMetrics.map Prod.fst).Nodup) (hrow : (symbol, before) ∈ rawMetrics)
    {other : String × RawMetrics} (hother : other ∈ rawMetrics) (hne : other.1 ≠ symbol)
    (himproved : ∀ v ∈ metric before, ∃ w ∈ metric after, w ≤ v) :
    let old := bounds (values metric rawMetrics)
    let new := bounds (values metric (withMetrics rawMetrics symbol after))
    normalizeInverse (metric before) old.1 old.2 - normalizeInverse (metric other.2) old.1 old.2 ≤
      normalizeInverse (metric after) new.1 new.2 -
        normalizeInverse (metric other.2) new.1 new.2 := by
  intro old new
  simp only [normalizeInverse_eq]
  refine score_gap (fun metrics => (metric metrics).map Neg.neg) hdistinct hrow hother hne ?_ ?_
    ?_
  · intro v hv
    obtain ⟨u, hu, rfl⟩ := Option.map_eq_some_iff.mp hv
    obtain ⟨w, hw, hle⟩ := himproved u hu
    exact ⟨-w, Option.map_eq_some_iff.mpr ⟨w, hw, rfl⟩, neg_le_neg hle⟩
  · rw [values_neg]
    exact bounded_neg (bounds_bounded _)
  · rw [values_neg]
    exact bounded_neg (bounds_bounded _)

structure Weights.Nonneg (weights : Weights) : Prop where
  liquidity : 0 ≤ weights.liquidity
  spread : 0 ≤ weights.spread
  volatility : 0 ≤ weights.volatility

theorem resolveWeights_nonneg {stage7ScoreWeights : Option (Dict ℚ)}
    (hweights : ∀ configured ∈ stage7ScoreWeights, ∀ (name : String) (weight : ℚ),
      configured[name]? = some weight → 0 ≤ weight) :
    (resolveWeights stage7ScoreWeights).Nonneg := by
  have hget (name : String) {weight : ℚ} (hdefault : 0 ≤ weight) :
      0 ≤ (stage7ScoreWeights.getD ∅)[name]?.getD weight := by
    cases hconfigured : stage7ScoreWeights with
    | none => simpa using hdefault
    | some configured =>
      cases hname : configured[name]? with
      | none => simpa [hname] using hdefault
      | some value => simpa [hname] using hweights configured hconfigured name value hname
  unfold resolveWeights
  simp only
  split_ifs with htotal
  · exact ⟨by norm_num [defaultWeights], by norm_num [defaultWeights], by norm_num [defaultWeights]⟩
  · have hpos := (not_le.mp htotal).le
    exact ⟨div_nonneg (hget _ (by norm_num [defaultWeights])) hpos,
      div_nonneg (hget _ (by norm_num [defaultWeights])) hpos,
      div_nonneg (hget _ (by norm_num [defaultWeights])) hpos⟩

/-- A symbol that improves falls behind no other. -/
theorem totalScore_gap {weights : Weights} (hweights : weights.Nonneg)
    (hdistinct : (rawMetrics.map Prod.fst).Nodup) (hrow : (symbol, before) ∈ rawMetrics)
    {other : String × RawMetrics} (hother : other ∈ rawMetrics) (hne : other.1 ≠ symbol)
    (himproved : NoWorse before after) :
    totalScore weights rawMetrics before - totalScore weights rawMetrics other.2 ≤
      totalScore weights (withMetrics rawMetrics symbol after) after -
        totalScore weights (withMetrics rawMetrics symbol after) other.2 := by
  have hliquidity := score_gap RawMetrics.volumeTry hdistinct hrow hother hne himproved.volumeTry
    (bounds_bounded _)
    (bounds_bounded _)
  have hspread := inverse_gap hdistinct hrow hother hne himproved.spreadBps
  have hvolatility := inverse_gap hdistinct hrow hother hne himproved.volatility
  simp only [← normalizeLinear_eq] at hliquidity
  have hl := mul_le_mul_of_nonneg_right hliquidity hweights.liquidity
  have hs := mul_le_mul_of_nonneg_right hspread hweights.spread
  have hv := mul_le_mul_of_nonneg_right hvolatility hweights.volatility
  simp only [sub_mul] at hl hs hv
  simp only [totalScore, liquidityScore, spreadScore, volatilityScore]
  linarith

end Improved

section Ranked

variable {weights : Weights} {rawMetrics : Rows}

theorem rankKey_lt_iff (a b : UniverseCandidate) :
    rankKey a < rankKey b ↔ b.totalScore < a.totalScore ∨
      a.totalScore = b.totalScore ∧ a.symbol < b.symbol := by
  unfold rankKey
  rw [Prod.Lex.toLex_lt_toLex, neg_lt_neg_iff, neg_inj]

theorem scoreCandidates_sorted (weights : Weights)
    (hdistinct : (rawMetrics.map Prod.fst).Nodup) :
    (scoreCandidates weights rawMetrics).Pairwise fun a b => rankKey a < rankKey b := by
  have hle := List.pairwise_insertionSort RankedBefore
    (rawMetrics.map (scoreCandidate weights rawMetrics))
  have hne := (scoreCandidates_symbols weights rawMetrics).nodup_iff.mpr hdistinct
  rw [List.Nodup, List.pairwise_map] at hne
  refine hle.imp₂ (fun a b hab hsymbol => lt_of_le_of_ne hab fun heq => hsymbol ?_) hne
  exact congrArg (fun key => (ofLex key).2) heq

variable (settings : UniverseSelection.Settings)

def fits (candidate : UniverseCandidate) : Bool :=
  (candidateExclusions settings candidate).isEmpty

theorem fits_iff (candidate : UniverseCandidate) :
    fits settings candidate = true ↔
      (∃ spread ∈ candidate.spreadBps,
        ¬ (0 < settings.stage7MaxSpreadBps ∧ settings.stage7MaxSpreadBps < spread)) ∧
      ∃ volume ∈ candidate.volumeTry, settings.stage7MinQuoteVolumeTry ≤ volume := by
  rw [fits, List.isEmpty_iff, candidateExclusions, List.append_eq_nil_iff]
  refine and_congr ?_ ?_
  · cases candidate.spreadBps with
    | none => simp
    | some spread => simp only [Option.mem_def, Option.some.injEq, exists_eq_left',
        ite_eq_right_iff, reduceCtorEq, imp_false]
  · cases candidate.volumeTry with
    | none => simp
    | some volume => simp only [Option.mem_def, Option.some.injEq, exists_eq_left',
        ite_eq_right_iff, reduceCtorEq, imp_false, not_lt]

/-- The symbols with a claim to a place that are ahead of a row. -/
def ahead (weights : Weights) (rawMetrics : Rows) (row : String × RawMetrics) : ℕ :=
  rawMetrics.countP fun other =>
    rankKey (scoreCandidate weights rawMetrics other) <
      rankKey (scoreCandidate weights rawMetrics row) &&
    fits settings (scoreCandidate weights rawMetrics other)

theorem ahead_eq (weights : Weights) (rawMetrics : Rows) (row : String × RawMetrics) :
    ((scoreCandidates weights rawMetrics).filter (fits settings)).countP (fun candidate =>
        rankKey candidate < rankKey (scoreCandidate weights rawMetrics row)) =
      ahead settings weights rawMetrics row := by
  rw [List.countP_filter, (scoreCandidates_perm weights rawMetrics).countP_eq, List.countP_map]
  rfl

/-- The places go to the symbols that fit with few enough of them ahead. -/
theorem mem_desired {stage7ScoreWeights : Option (Dict ℚ)} {maxDataAge : ℚ} {observed : Observed}
    {symbol : String} :
    symbol ∈ desired settings (callOf stage7ScoreWeights maxDataAge observed) ↔
      ∃ metrics, (symbol, metrics) ∈ observed.rawMetrics ∧
        fits settings (scoreCandidate (resolveWeights stage7ScoreWeights) observed.rawMetrics
          (symbol, metrics)) = true ∧
        ahead settings (resolveWeights stage7ScoreWeights) observed.rawMetrics (symbol, metrics) <
          maxSize settings := by
  have hsorted := (scoreCandidates_sorted (resolveWeights stage7ScoreWeights)
    observed.distinct).filter (fits settings)
  have hplaces (row : String × RawMetrics) :=
    mem_take_iff rankKey hsorted (maxSize settings)
      (scoreCandidate (resolveWeights stage7ScoreWeights) observed.rawMetrics row)
  have hmem (candidate : UniverseCandidate) :
      candidate ∈ scoreCandidates (resolveWeights stage7ScoreWeights) observed.rawMetrics ↔
        candidate ∈ observed.rawMetrics.map
          (scoreCandidate (resolveWeights stage7ScoreWeights) observed.rawMetrics) :=
    (scoreCandidates_perm (resolveWeights stage7ScoreWeights) observed.rawMetrics).mem_iff
  simp only [ahead_eq, List.mem_filter] at hplaces
  unfold desired
  rw [List.mem_map]
  constructor
  · rintro ⟨candidate, hcandidate, rfl⟩
    have hin := List.mem_filter.mp (List.mem_of_mem_take hcandidate)
    obtain ⟨row, hrow, rfl⟩ := List.mem_map.mp ((hmem candidate).mp hin.1)
    exact ⟨row.2, hrow, hin.2, ((hplaces row).mp hcandidate).2⟩
  · rintro ⟨metrics, hrow, hfits, hahead⟩
    refine ⟨scoreCandidate (resolveWeights stage7ScoreWeights) observed.rawMetrics
      (symbol, metrics), (hplaces (symbol, metrics)).mpr ⟨⟨?_, hfits⟩, hahead⟩, rfl⟩
    exact (hmem _).mpr (List.mem_map_of_mem hrow)

end Ranked

section Places

variable {settings : UniverseSelection.Settings} {symbol : String} {before after : RawMetrics}

theorem withMetrics_canonical {rawMetrics : Rows}
    (h : ∀ row ∈ rawMetrics, canonicalSymbol row.1 = row.1) (symbol : String)
    (metrics : RawMetrics) :
    ∀ row ∈ withMetrics rawMetrics symbol metrics, canonicalSymbol row.1 = row.1 := by
  intro row hrow
  obtain ⟨old, hold, rfl⟩ := List.mem_map.mp hrow
  exact h old hold

/-- The same call, had it found these metrics for a symbol. -/
def Observed.withMetrics (observed : Observed) (symbol : String) (metrics : RawMetrics) :
    Observed where
  now := observed.now
  freezeReasons := observed.freezeReasons
  discoveryExclusions := observed.discoveryExclusions
  rawMetrics := UniverseScoring.withMetrics observed.rawMetrics symbol metrics
  canonical := withMetrics_canonical observed.canonical symbol metrics
  distinct := (withMetrics_symbols observed.rawMetrics symbol metrics).symm ▸ observed.distinct

/-- A book is tighter when the bid is no lower and the ask no higher. -/
theorem computeSpreadBps_tighter {bid ask bid' ask' : ℚ} (hbid : bid ≤ bid') (hask : ask' ≤ ask)
    (hbook : bid' ≤ ask') :
    ∀ v ∈ computeSpreadBps bid ask, ∃ w ∈ computeSpreadBps bid' ask', w ≤ v := by
  intro v hv
  unfold computeSpreadBps at hv ⊢
  simp only at hv ⊢
  split_ifs at hv with hempty hmid
  · cases hv
  · cases hv
  · rw [not_or, not_or, not_le, not_le, not_lt] at hempty
    obtain ⟨hpos, -, -⟩ := hempty
    have hpos' : 0 < bid' := hpos.trans_le hbid
    have hmid' : 0 < (bid' + ask') / 2 := half_pos (add_pos hpos' (hpos'.trans_le hbook))
    rw [if_neg (not_or.mpr ⟨not_le.mpr hpos', not_or.mpr
      ⟨not_le.mpr (hpos'.trans_le hbook), not_lt.mpr hbook⟩⟩), if_neg (not_le.mpr hmid')]
    refine ⟨_, rfl, ?_⟩
    cases hv
    refine mul_le_mul_of_nonneg_right ?_ (by norm_num)
    rw [div_le_div_iff₀ hmid' (not_le.mp hmid)]
    have hcross : ask' * bid ≤ ask * bid' :=
      mul_le_mul hask hbid hpos.le ((hpos'.trans_le hbook).le.trans hask)
    linarith

theorem noWorse_of_book {volume volatility age : Option ℚ} {bid ask bid' ask' : ℚ}
    (hbid : bid ≤ bid') (hask : ask' ≤ ask) (hbook : bid' ≤ ask') :
    NoWorse ⟨volume, computeSpreadBps bid ask, volatility, age⟩
      ⟨volume, computeSpreadBps bid' ask', volatility, age⟩ where
  volumeTry := fun v hv => ⟨v, hv, le_rfl⟩
  spreadBps := computeSpreadBps_tighter hbid hask hbook
  volatility := fun v hv => ⟨v, hv, le_rfl⟩

theorem fits_improved {weights : Weights} {rawMetrics rawMetrics' : Rows}
    (himproved : NoWorse before after)
    (h : fits settings (scoreCandidate weights rawMetrics (symbol, before)) = true) :
    fits settings (scoreCandidate weights rawMetrics' (symbol, after)) = true := by
  rw [fits_iff] at h ⊢
  obtain ⟨⟨spread, hspread, hmax⟩, volume, hvolume, hmin⟩ := h
  obtain ⟨spread', hspread', hless⟩ := himproved.spreadBps spread hspread
  obtain ⟨volume', hvolume', hmore⟩ := himproved.volumeTry volume hvolume
  refine ⟨⟨spread', hspread', ?_⟩, volume', hvolume', hmin.trans hmore⟩
  rintro ⟨hpos, hover⟩
  exact hmax ⟨hpos, hover.trans_le hless⟩

theorem ahead_improved {weights : Weights} (hweights : weights.Nonneg) {rawMetrics : Rows}
    (hdistinct : (rawMetrics.map Prod.fst).Nodup) (hrow : (symbol, before) ∈ rawMetrics)
    (himproved : NoWorse before after) :
    ahead settings weights (withMetrics rawMetrics symbol after) (symbol, after) ≤
      ahead settings weights rawMetrics (symbol, before) := by
  have hcount : ahead settings weights (withMetrics rawMetrics symbol after) (symbol, after) =
      rawMetrics.countP fun other =>
        rankKey (scoreCandidate weights (withMetrics rawMetrics symbol after)
            (other.1, if other.1 = symbol then after else other.2)) <
          rankKey (scoreCandidate weights (withMetrics rawMetrics symbol after) (symbol, after)) &&
        fits settings (scoreCandidate weights (withMetrics rawMetrics symbol after)
          (other.1, if other.1 = symbol then after else other.2)) := by
    unfold ahead
    conv_lhs => rw [withMetrics]
    exact List.countP_map ..
  rw [hcount]
  refine List.countP_mono_left fun other hother hahead => ?_
  rw [Bool.and_eq_true, decide_eq_true_eq] at hahead ⊢
  by_cases heq : other.1 = symbol
  · rw [if_pos heq, heq] at hahead
    exact absurd hahead.1 (lt_irrefl _)
  · rw [if_neg heq] at hahead
    refine ⟨?_, hahead.2⟩
    have hgap := totalScore_gap hweights hdistinct hrow hother heq himproved
    rw [rankKey_lt_iff] at hahead ⊢
    simp only [scoreCandidate] at hahead ⊢
    rcases hahead.1 with hmore | ⟨hlevel, hsymbol⟩
    · exact .inl (by linarith)
    · rcases (show totalScore weights rawMetrics before ≤ totalScore weights rawMetrics other.2 by
          linarith).lt_or_eq with hless | hsame
      · exact .inl hless
      · exact .inr ⟨hsame.symm, hsymbol⟩

/-- A symbol keeps its place when its data improve, whatever that does to the scores of the
others. -/
theorem desired_of_improved {stage7ScoreWeights : Option (Dict ℚ)} {maxDataAge : ℚ}
    {observed : Observed}
    (hweights : ∀ configured ∈ stage7ScoreWeights, ∀ (name : String) (weight : ℚ),
      configured[name]? = some weight → 0 ≤ weight)
    (himproved : ∀ metrics, (symbol, metrics) ∈ observed.rawMetrics → NoWorse metrics after)
    (h : symbol ∈ desired settings (callOf stage7ScoreWeights maxDataAge observed)) :
    symbol ∈ desired settings
      (callOf stage7ScoreWeights maxDataAge (observed.withMetrics symbol after)) := by
  rw [mem_desired] at h ⊢
  obtain ⟨metrics, hrow, hfits, hahead⟩ := h
  have hbetter := himproved metrics hrow
  refine ⟨after, withMetrics_mem hrow after, fits_improved hbetter hfits, ?_⟩
  exact (ahead_improved (resolveWeights_nonneg hweights) observed.distinct hrow hbetter).trans_lt
    hahead

def sampleObserved : Observed where
  now := 0
  freezeReasons := []
  discoveryExclusions := ∅
  rawMetrics := [("BTCTRY", ⟨some 900, computeSpreadBps 99 101, some (1 / 50), some 1⟩),
    ("ETHTRY", ⟨some 400, none, some (1 / 20), some 1⟩),
    ("XRPTRY", ⟨some 100, computeSpreadBps 49 50, some (1 / 10), some 1⟩)]
  canonical := by decide +kernel
  distinct := by decide +kernel

/-- The book of the leader tightens. -/
theorem sampleObserved_keeps :
    "BTCTRY" ∈ desired { stage7UniverseSize := 1 }
      (callOf none 60 (sampleObserved.withMetrics "BTCTRY"
        ⟨some 900, computeSpreadBps 100 101, some (1 / 50), some 1⟩)) := by
  refine desired_of_improved (fun configured h => by cases h) (fun metrics hmetrics => ?_)
    (by decide +kernel)
  have hrow : metrics = ⟨some 900, computeSpreadBps 99 101, some (1 / 50), some 1⟩ := by
    simpa [sampleObserved] using hmetrics
  subst hrow
  exact noWorse_of_book (by norm_num) le_rfl (by norm_num)

end Places

section Order

variable {rawMetrics rawMetrics' : Rows}

theorem scoreCandidate_perm (h : rawMetrics.Perm rawMetrics') (weights : Weights) :
    scoreCandidate weights rawMetrics = scoreCandidate weights rawMetrics' := by
  have hbounds (metric : RawMetrics → Option ℚ) :
      bounds (values metric rawMetrics) = bounds (values metric rawMetrics') :=
    bounds_perm (h.filterMap _)
  funext row
  simp only [scoreCandidate, totalScore, liquidityScore, spreadScore, volatilityScore, hbounds]

theorem scoreCandidates_eq (h : rawMetrics.Perm rawMetrics')
    (hdistinct : (rawMetrics.map Prod.fst).Nodup) (weights : Weights) :
    scoreCandidates weights rawMetrics = scoreCandidates weights rawMetrics' := by
  have hdistinct' := (h.map Prod.fst).nodup_iff.mp hdistinct
  have hperm : (scoreCandidates weights rawMetrics).Perm (scoreCandidates weights rawMetrics') := by
    refine (scoreCandidates_perm weights rawMetrics).trans ?_
    rw [scoreCandidate_perm h]
    exact (h.map _).trans (scoreCandidates_perm weights rawMetrics').symm
  refine hperm.eq_of_pairwise (fun a b _ _ hab hba => ?_)
    (scoreCandidates_sorted weights hdistinct) (scoreCandidates_sorted weights hdistinct')
  exact absurd hba (lt_asymm hab)

/-- The order in which the metrics were gathered shows nowhere in a selection. -/
theorem selectUniverse_listed (settings : UniverseSelection.Settings) (world : World)
    (stage7ScoreWeights : Option (Dict ℚ)) (maxDataAge : ℚ) {observed observed' : Observed}
    (hnow : observed.now = observed'.now)
    (hfreeze : observed.freezeReasons = observed'.freezeReasons)
    (hdiscovery : observed.discoveryExclusions = observed'.discoveryExclusions)
    (hlisted : observed.rawMetrics.Perm observed'.rawMetrics) :
    selectUniverse settings world (callOf stage7ScoreWeights maxDataAge observed) =
      selectUniverse settings world (callOf stage7ScoreWeights maxDataAge observed') := by
  have hscored := scoreCandidates_eq hlisted observed.distinct (resolveWeights stage7ScoreWeights)
  have hstale : staleDetected maxDataAge observed.rawMetrics =
      staleDetected maxDataAge observed'.rawMetrics := hlisted.any_eq
  have hcall : callOf stage7ScoreWeights maxDataAge observed =
      callOf stage7ScoreWeights maxDataAge observed' := by
    simp only [callOf, hnow, hfreeze, hdiscovery, hstale, hscored]
  rw [hcall]

def sampleRelisted : Observed where
  now := 0
  freezeReasons := []
  discoveryExclusions := ∅
  rawMetrics := [("XRPTRY", ⟨some 100, computeSpreadBps 49 50, some (1 / 10), some 1⟩),
    ("BTCTRY", ⟨some 900, computeSpreadBps 99 101, some (1 / 50), some 1⟩),
    ("ETHTRY", ⟨some 400, none, some (1 / 20), some 1⟩)]
  canonical := by decide +kernel
  distinct := by decide +kernel

theorem sampleRelisted_same :
    selectUniverse {} {} (callOf none 60 sampleObserved) =
      selectUniverse {} {} (callOf none 60 sampleRelisted) :=
  selectUniverse_listed {} {} none 60 rfl rfl rfl (by decide +kernel)

end Order

end UniverseScoring
