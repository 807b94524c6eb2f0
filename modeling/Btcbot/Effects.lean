import Mathlib.Order.Defs.Unbundled

/-!
# Programs with state and exceptions

An end of a program is a value or an exception, each with the state it leaves:
raising does not undo a write. `Ends` asks a condition of every end of one
start; `Triple` asks it from every start that meets a precondition, and has the
rules of Hoare logic. `Keeps` asks that every end be related to the start, for a
relation that composes; an invariant the relation carries is then a triple.
A program run as a transaction has its writes undone when it raises.
-/
namespace Effects

variable {ε σ α β : Type}

def Ends (m : EStateM ε σ α) (s : σ) (Q : α → σ → Prop) (E : ε → σ → Prop) : Prop :=
  match m s with
  | .ok a t => Q a t
  | .error e t => E e t

instance (m : EStateM ε σ α) (s : σ) (Q : α → σ → Prop) (E : ε → σ → Prop)
    [∀ a t, Decidable (Q a t)] [∀ e t, Decidable (E e t)] : Decidable (Ends m s Q E) :=
  match h : m s with
  | .ok a t => decidable_of_iff (Q a t) (by simp [Ends, h])
  | .error e t => decidable_of_iff (E e t) (by simp [Ends, h])

theorem Ends.mono {m : EStateM ε σ α} {s : σ} {Q Q' : α → σ → Prop} {E E' : ε → σ → Prop}
    (h : Ends m s Q E) (hq : ∀ a t, Q a t → Q' a t) (he : ∀ e t, E e t → E' e t) :
    Ends m s Q' E' := by
  unfold Ends at h ⊢
  cases hm : m s with
  | ok a t => exact hq a t (by simpa [hm] using h)
  | error e t => exact he e t (by simpa [hm] using h)

@[simp] theorem ends_pure (a : α) (s : σ) (Q : α → σ → Prop) (E : ε → σ → Prop) :
    Ends (pure a) s Q E ↔ Q a s := Iff.rfl

@[simp] theorem ends_throw (e : ε) (s : σ) (Q : α → σ → Prop) (E : ε → σ → Prop) :
    Ends (throw e) s Q E ↔ E e s := Iff.rfl

@[simp] theorem ends_bind (m : EStateM ε σ α) (f : α → EStateM ε σ β) (s : σ)
    (Q : β → σ → Prop) (E : ε → σ → Prop) :
    Ends (m >>= f) s Q E ↔ Ends m s (fun a t => Ends (f a) t Q E) E := by
  simp only [Ends, bind, EStateM.bind]
  cases m s <;> rfl

@[simp] theorem ends_tryCatch (m : EStateM ε σ α) (h : ε → EStateM ε σ α) (s : σ)
    (Q : α → σ → Prop) (E : ε → σ → Prop) :
    Ends (tryCatch m h) s Q E ↔ Ends m s Q (fun e t => Ends (h e) t Q E) := by
  change Ends (EStateM.tryCatch m h) s Q E ↔ _
  delta EStateM.tryCatch
  dsimp only [Ends]
  cases m s <;> rfl

@[simp] theorem ends_get (s : σ) (Q : σ → σ → Prop) (E : ε → σ → Prop) :
    Ends get s Q E ↔ Q s s := Iff.rfl

@[simp] theorem ends_set (t s : σ) (Q : PUnit → σ → Prop) (E : ε → σ → Prop) :
    Ends (set t) s Q E ↔ Q ⟨⟩ t := Iff.rfl

@[simp] theorem ends_modify (f : σ → σ) (s : σ) (Q : PUnit → σ → Prop) (E : ε → σ → Prop) :
    Ends (modify f) s Q E ↔ Q ⟨⟩ (f s) := Iff.rfl

@[simp] theorem ends_ite (c : Prop) [Decidable c] (m n : EStateM ε σ α) (s : σ)
    (Q : α → σ → Prop) (E : ε → σ → Prop) :
    Ends (if c then m else n) s Q E ↔ if c then Ends m s Q E else Ends n s Q E := by
  split <;> rfl

/-- From a start that meets `P`, a value meets `Q` and an exception `E`. -/
def Triple (P : σ → Prop) (m : EStateM ε σ α) (Q : α → σ → Prop) (E : ε → σ → Prop) : Prop :=
  ∀ s, P s → Ends m s Q E

/-- The invariant holds at every end, whichever way the program ends. -/
abbrev Maintains (I : σ → Prop) (m : EStateM ε σ α) : Prop :=
  Triple I m (fun _ => I) (fun _ => I)

section Triple

variable {P P' : σ → Prop} {Q Q' : α → σ → Prop} {E E' : ε → σ → Prop} {m : EStateM ε σ α}

theorem Triple.conseq (h : Triple P m Q E) (hp : ∀ s, P' s → P s)
    (hq : ∀ a t, Q a t → Q' a t) (he : ∀ e t, E e t → E' e t) : Triple P' m Q' E' :=
  fun s hs => (h s (hp s hs)).mono hq he

theorem Triple.bind {R : β → σ → Prop} {f : α → EStateM ε σ β} (hm : Triple P m Q E)
    (hf : ∀ a, Triple (Q a) (f a) R E) : Triple P (m >>= f) R E := by
  intro s hs
  rw [ends_bind]
  exact (hm s hs).mono (fun a t ht => hf a t ht) (fun _ _ he => he)

theorem Triple.pure {a : α} (h : ∀ s, P s → Q a s) : Triple P (pure a) Q E :=
  fun s hs => (ends_pure a s Q E).mpr (h s hs)

theorem Triple.throw {e : ε} (h : ∀ s, P s → E e s) : Triple P (throw e) Q E :=
  fun s hs => (ends_throw e s Q E).mpr (h s hs)

theorem Triple.get {Q : σ → σ → Prop} (h : ∀ s, P s → Q s s) : Triple P (MonadState.get) Q E :=
  fun s hs => (ends_get s Q E).mpr (h s hs)

theorem Triple.modify {Q : PUnit → σ → Prop} {f : σ → σ} (h : ∀ s, P s → Q ⟨⟩ (f s)) :
    Triple P (modify f) Q E :=
  fun s hs => (ends_modify f s Q E).mpr (h s hs)

theorem Triple.ite {c : Prop} [Decidable c] {n : EStateM ε σ α} (hm : c → Triple P m Q E)
    (hn : ¬ c → Triple P n Q E) : Triple P (if c then m else n) Q E := by
  by_cases hc : c
  · rw [if_pos hc]
    exact hm hc
  · rw [if_neg hc]
    exact hn hc

theorem Triple.tryCatch {R : ε → σ → Prop} {h : ε → EStateM ε σ α} (hm : Triple P m Q R)
    (hh : ∀ e, Triple (R e) (h e) Q E) : Triple P (tryCatch m h) Q E := by
  intro s hs
  rw [ends_tryCatch]
  exact (hm s hs).mono (fun _ _ hq => hq) (fun e t ht => hh e t ht)

/-- What a precondition says beside the state may be assumed. -/
theorem Triple.assume {c : Prop} (h : c → Triple P m Q E) : Triple (fun s => c ∧ P s) m Q E :=
  fun s hs => h hs.1 s hs.2

/-- A loop over a list, with an invariant on the accumulator and the state. -/
theorem Triple.foldlM {γ : Type} {f : β → γ → EStateM ε σ β} {I : β → σ → Prop} (l : List γ)
    (hstep : ∀ c ∈ l, ∀ b, Triple (I b) (f b c) I E) (b : β) :
    Triple (I b) (l.foldlM f b) I E := by
  induction l generalizing b with
  | nil => exact Triple.pure fun _ hs => hs
  | cons c l ih =>
    rw [List.foldlM_cons]
    refine (hstep c List.mem_cons_self b).bind fun b' => ?_
    exact ih (fun d hd => hstep d (List.mem_cons_of_mem c hd)) b'

end Triple

theorem Ends.and {m : EStateM ε σ α} {s : σ} {Q Q' : α → σ → Prop} {E E' : ε → σ → Prop}
    (h : Ends m s Q E) (h' : Ends m s Q' E') :
    Ends m s (fun a t => Q a t ∧ Q' a t) (fun e t => E e t ∧ E' e t) := by
  unfold Ends at h h' ⊢
  cases hm : m s with
  | ok a t => exact ⟨by simpa [hm] using h, by simpa [hm] using h'⟩
  | error e t => exact ⟨by simpa [hm] using h, by simpa [hm] using h'⟩

section Along

variable {γ : Type}

/-- Every element of a loop meets a condition in the state the loop takes it in. -/
def Along (ok : β → γ → σ → Prop) (f : β → γ → EStateM ε σ β) : List γ → β → σ → Prop
  | [], _, _ => True
  | c :: l, b, s => ok b c s ∧ Ends (f b c) s (fun b' t => Along ok f l b' t) (fun _ _ => True)

def Along.decide (ok : β → γ → σ → Prop) [∀ b c s, Decidable (ok b c s)]
    (f : β → γ → EStateM ε σ β) : ∀ (l : List γ) (b : β) (s : σ), Decidable (Along ok f l b s)
  | [], _, _ => isTrue trivial
  | c :: l, b, s =>
    have _ : ∀ b' t, Decidable (Along ok f l b' t) := Along.decide ok f l
    inferInstanceAs (Decidable (ok b c s ∧
      Ends (f b c) s (fun b' t => Along ok f l b' t) (fun _ _ => True)))

instance (ok : β → γ → σ → Prop) [∀ b c s, Decidable (ok b c s)] (f : β → γ → EStateM ε σ β)
    (l : List γ) (b : β) (s : σ) : Decidable (Along ok f l b s) := Along.decide ok f l b s

theorem Along.foldlM {ok : β → γ → σ → Prop} {f : β → γ → EStateM ε σ β} {I : β → σ → Prop}
    {E : ε → σ → Prop} (hstep : ∀ b c, Triple (fun s => I b s ∧ ok b c s) (f b c) I E)
    (l : List γ) (b : β) (s : σ) (hs : I b s) (h : Along ok f l b s) :
    Ends (l.foldlM f b) s I E := by
  induction l generalizing b s with
  | nil => exact hs
  | cons c l ih =>
    obtain ⟨hok, hrest⟩ := h
    rw [List.foldlM_cons, ends_bind]
    exact ((hstep b c s ⟨hs, hok⟩).and hrest).mono (fun b' t ht => ih b' t ht.1 ht.2)
      fun _ _ he => he.1

end Along

/-- Every end is related to the start. -/
def Keeps (R : σ → σ → Prop) (m : EStateM ε σ α) : Prop :=
  ∀ s, Ends m s (fun _ t => R s t) (fun _ t => R s t)

section Keeps

variable {R : σ → σ → Prop} {m : EStateM ε σ α}

theorem Keeps.imp {R' : σ → σ → Prop} (h : Keeps R m) (himp : ∀ s t, R s t → R' s t) :
    Keeps R' m :=
  fun s => (h s).mono (fun _ t => himp s t) (fun _ t => himp s t)

/-- The frame rule: what the relation carries is kept. -/
theorem Keeps.frame {I : σ → Prop} (h : Keeps R m) (hI : ∀ s t, R s t → I s → I t) :
    Maintains I m :=
  fun s hs => (h s).mono (fun _ t hst => hI s t hst hs) (fun _ t hst => hI s t hst hs)

theorem Keeps.modify {f : σ → σ} (h : ∀ s, R s (f s)) :
    Keeps (ε := ε) R (modify f : EStateM ε σ PUnit) := fun s => (ends_modify f s _ _).mpr (h s)

theorem Keeps.ite {c : Prop} [Decidable c] {n : EStateM ε σ α} (hm : Keeps R m)
    (hn : Keeps R n) : Keeps R (if c then m else n) := by
  split
  · exact hm
  · exact hn

variable [IsPreorder σ R]

theorem Keeps.pure (a : α) : Keeps (ε := ε) R (pure a : EStateM ε σ α) :=
  fun s => refl_of R s

theorem Keeps.throw (e : ε) : Keeps R (throw e : EStateM ε σ α) := fun s => refl_of R s

theorem Keeps.get : Keeps (ε := ε) R (MonadState.get : EStateM ε σ σ) := fun s => refl_of R s

theorem Keeps.bind {f : α → EStateM ε σ β} (hm : Keeps R m) (hf : ∀ a, Keeps R (f a)) :
    Keeps R (m >>= f) := by
  intro s
  rw [ends_bind]
  refine (hm s).mono (fun a t hst => ?_) (fun _ _ h => h)
  exact (hf a t).mono (fun _ _ h => trans_of R hst h) (fun _ _ h => trans_of R hst h)

theorem Keeps.tryCatch {h : ε → EStateM ε σ α} (hm : Keeps R m) (hh : ∀ e, Keeps R (h e)) :
    Keeps R (tryCatch m h) := by
  intro s
  rw [ends_tryCatch]
  refine (hm s).mono (fun _ _ h => h) (fun e t hst => ?_)
  exact (hh e t).mono (fun _ _ h => trans_of R hst h) (fun _ _ h => trans_of R hst h)

theorem Keeps.foldlM_mem {γ : Type} {f : β → γ → EStateM ε σ β} (l : List γ)
    (hf : ∀ c ∈ l, ∀ b, Keeps R (f b c)) (b : β) : Keeps R (l.foldlM f b) := by
  induction l generalizing b with
  | nil => exact Keeps.pure b
  | cons c l ih =>
    exact (hf c List.mem_cons_self b).bind (ih fun d hd => hf d (List.mem_cons_of_mem c hd))

theorem Keeps.foldlM {γ : Type} {f : β → γ → EStateM ε σ β} (hf : ∀ b c, Keeps R (f b c))
    (l : List γ) (b : β) : Keeps R (l.foldlM f b) :=
  Keeps.foldlM_mem l (fun c _ b => hf b c) b

end Keeps

/-- What `R` allows may be done before and after what `T` allows. -/
structure Absorbs (R T : σ → σ → Prop) : Prop where
  sub : ∀ {s t}, R s t → T s t
  first : ∀ {a b c}, R a b → T b c → T a c
  last : ∀ {a b c}, T a b → R b c → T a c

section Absorbs

variable {R T : σ → σ → Prop} {m : EStateM ε σ α}

theorem Absorbs.self (R : σ → σ → Prop) [IsPreorder σ R] : Absorbs R R :=
  ⟨fun h => h, fun hab hbc => trans_of R hab hbc, fun hab hbc => trans_of R hab hbc⟩

theorem Absorbs.bind_first (h : Absorbs R T) {f : α → EStateM ε σ β} (hm : Keeps R m)
    (hf : ∀ a, Keeps T (f a)) : Keeps T (m >>= f) := by
  intro s
  rw [ends_bind]
  refine (hm s).mono (fun a t hst => ?_) (fun _ _ hst => h.sub hst)
  exact (hf a t).mono (fun _ _ htu => h.first hst htu) (fun _ _ htu => h.first hst htu)

theorem Absorbs.bind_last (h : Absorbs R T) {f : α → EStateM ε σ β} (hm : Keeps T m)
    (hf : ∀ a, Keeps R (f a)) : Keeps T (m >>= f) := by
  intro s
  rw [ends_bind]
  refine (hm s).mono (fun a t hst => ?_) (fun _ _ hst => hst)
  exact (hf a t).mono (fun _ _ htu => h.last hst htu) (fun _ _ htu => h.last hst htu)

end Absorbs

section Transaction

/-- A transaction: what a program that raises wrote is rolled back. -/
def atomically (m : EStateM ε σ α) (s : σ) : Except ε α × σ :=
  match m s with
  | .ok a t => (.ok a, t)
  | .error e _ => (.error e, s)

/-- A transaction that raises changes nothing. -/
theorem atomically_error {m : EStateM ε σ α} {s : σ} {e : ε}
    (h : (atomically m s).1 = .error e) : (atomically m s).2 = s := by
  unfold atomically at h ⊢
  cases hm : m s with
  | ok a t => simp [hm] at h
  | error e t => rfl

/-- A committed transaction meets the postcondition, an aborted one is as if never begun. -/
theorem atomically_cases {P : σ → Prop} {m : EStateM ε σ α} {Q : α → σ → Prop}
    {E : ε → σ → Prop} (h : Triple P m Q E) {s : σ} (hs : P s) :
    (∃ a, Q a (atomically m s).2) ∨ (atomically m s).2 = s := by
  have hends := h s hs
  unfold Ends at hends
  unfold atomically
  cases hm : m s with
  | ok a t => exact .inl ⟨a, by simpa [hm] using hends⟩
  | error e t => exact .inr rfl

end Transaction

end Effects
