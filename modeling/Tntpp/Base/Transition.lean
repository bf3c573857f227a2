import Mathlib.Algebra.GroupWithZero.Nat
import Mathlib.Logic.Basic

/-!
# Runs of a deterministic labelled transition system

A system is a partial function `step : σ → ε → Option σ`: `none` where the event
cannot happen.  All nondeterminism is in the choice of events, so a run is a list
of events and `exec` follows it.

Two predicates speak about a run state by state.  `Always P` says that `P` holds
in the first state and in every state reached on the way; `Meets G` that every
event of the run satisfies `G` in the state it happens in.  Together they state
properties that hold as long as the environment keeps to a rule:
`always_of_meets` is the induction for these, packaged once.
-/

namespace Transition

universe u v

variable {σ : Type u} {ε : Type v} (step : σ → ε → Option σ)

/-- Follow a list of events from a state. -/
def exec : σ → List ε → Option σ
  | s, [] => some s
  | s, e :: es => (step s e).bind fun s' ↦ exec s' es

/-- `P` holds in every state the run goes through. -/
def Always (P : σ → Prop) : σ → List ε → Prop
  | s, [] => P s
  | s, e :: es => P s ∧ ∀ s', step s e = some s' → Always P s' es

/-- Every event of the run satisfies `G` in the state it happens in. -/
def Meets (G : σ → ε → Prop) : σ → List ε → Prop
  | _, [] => True
  | s, e :: es => G s e ∧ ∀ s', step s e = some s' → Meets G s' es

variable {step}

@[simp] theorem exec_nil (s : σ) : exec step s [] = some s := rfl

theorem exec_cons {s s' : σ} {e : ε} {es : List ε} :
    exec step s (e :: es) = some s' ↔ ∃ t, step s e = some t ∧ exec step t es = some s' :=
  Option.bind_eq_some_iff

theorem exec_append {s s' : σ} {es fs : List ε} :
    exec step s (es ++ fs) = some s' ↔ ∃ t, exec step s es = some t ∧ exec step t fs = some s' := by
  induction es generalizing s with
  | nil => simp
  | cons e es ih =>
      simp only [List.cons_append, exec_cons, ih]
      constructor
      · rintro ⟨u, hu, t, ht, hs'⟩
        exact ⟨t, ⟨u, hu, ht⟩, hs'⟩
      · rintro ⟨t, ⟨u, hu, ht⟩, hs'⟩
        exact ⟨u, hu, t, ht, hs'⟩

/-- A property that every step preserves holds at the end of every run. -/
theorem exec_invariant {I : σ → Prop}
    (hstep : ∀ s e s', step s e = some s' → I s → I s') {s s' : σ} {es : List ε}
    (hrun : exec step s es = some s') (h : I s) : I s' := by
  induction es generalizing s with
  | nil => exact Option.some.inj hrun ▸ h
  | cons e es ih =>
      obtain ⟨t, ht, hrun⟩ := exec_cons.mp hrun
      exact ih hrun (hstep s e t ht h)

/-- A relation between the ends of a run follows from its closure under steps. -/
theorem exec_related {R : σ → σ → Prop} (hrefl : ∀ s, R s s)
    (hstep : ∀ s e t, step s e = some t → ∀ u, R t u → R s u) {s s' : σ} {es : List ε}
    (hrun : exec step s es = some s') : R s s' := by
  induction es generalizing s with
  | nil => exact Option.some.inj hrun ▸ hrefl s
  | cons e es ih =>
      obtain ⟨t, ht, hrun⟩ := exec_cons.mp hrun
      exact hstep s e t ht s' (ih hrun)

theorem Always.head {P : σ → Prop} {s : σ} {es : List ε} (h : Always step P s es) : P s := by
  cases es with
  | nil => exact h
  | cons e es => exact h.1

/-- What always holds also holds in the last state of a run. -/
theorem Always.last {P : σ → Prop} {s s' : σ} {es : List ε} (h : Always step P s es)
    (hrun : exec step s es = some s') : P s' := by
  induction es generalizing s with
  | nil => exact Option.some.inj hrun ▸ h
  | cons e es ih =>
      obtain ⟨t, ht, hrun⟩ := exec_cons.mp hrun
      exact ih (h.2 t ht) hrun

/-- The last event of a run that meets `G` satisfies it. -/
theorem Meets.last {G : σ → ε → Prop} {s s' : σ} {es : List ε} {e : ε}
    (h : Meets step G s (es ++ [e])) (hrun : exec step s es = some s') : G s' e := by
  induction es generalizing s with
  | nil => exact Option.some.inj hrun ▸ h.1
  | cons e' es ih =>
      obtain ⟨t, ht, hrun⟩ := exec_cons.mp hrun
      exact ih (h.2 t ht) hrun

/-- An invariant of the steps that meet `G` holds all along a run that does. -/
theorem always_of_meets {G : σ → ε → Prop} {I : σ → Prop}
    (hstep : ∀ s e s', G s e → step s e = some s' → I s → I s') {s : σ} {es : List ε}
    (hG : Meets step G s es) (h : I s) : Always step I s es := by
  induction es generalizing s with
  | nil => exact h
  | cons e es ih => exact ⟨h, fun t ht ↦ ih (hG.2 t ht) (hstep s e t hG.1 ht h)⟩

/-- What holds at the end of a run held before it, or an event of the run is the source
of it. -/
theorem exec_source {I P : σ → Prop} {Q : ε → Prop}
    (hstep : ∀ s e t, I s → step s e = some t → P t → P s ∨ Q e) {s s' : σ} {es : List ε}
    (hI : Always step I s es) (hrun : exec step s es = some s') (h : P s') :
    P s ∨ ∃ e ∈ es, Q e := by
  induction es generalizing s with
  | nil => exact Or.inl (Option.some.inj hrun ▸ h)
  | cons e es ih =>
      obtain ⟨t, ht, hrun⟩ := exec_cons.mp hrun
      rcases ih (hI.2 t ht) hrun with hPt | ⟨e', hmem, hQ⟩
      · rcases hstep s e t hI.1 ht hPt with hPs | hQ
        · exact Or.inl hPs
        · exact Or.inr ⟨e, List.mem_cons_self, hQ⟩
      · exact Or.inr ⟨e', List.mem_cons_of_mem e hmem, hQ⟩

/-- Where `I` is preserved by the events that satisfy `G` and implies `P`, and every
other event leads out of `P`, `P` holds all along exactly the runs that meet `G`.  `F`
is a rule that all events of the run keep to. -/
theorem always_iff_meets {F G : σ → ε → Prop} {I P : σ → Prop} (hIP : ∀ s, I s → P s)
    (hgood : ∀ s e s', F s e → G s e → step s e = some s' → I s → I s')
    (hbad : ∀ s e s', F s e → ¬ G s e → step s e = some s' → I s → ¬ P s')
    {s s' : σ} {es : List ε} (hrun : exec step s es = some s') (hF : Meets step F s es)
    (h : I s) : Always step P s es ↔ Meets step G s es := by
  induction es generalizing s with
  | nil => exact ⟨fun _ ↦ trivial, fun _ ↦ hIP s h⟩
  | cons e es ih =>
      obtain ⟨t, ht, hrun⟩ := exec_cons.mp hrun
      constructor
      · intro hP
        have hG : G s e := Classical.byContradiction fun hG ↦
          hbad s e t hF.1 hG ht h (hP.2 t ht).head
        refine ⟨hG, fun u hu ↦ ?_⟩
        obtain rfl := Option.some.inj (ht.symm.trans hu)
        exact (ih hrun (hF.2 t ht) (hgood s e t hF.1 hG ht h)).mp (hP.2 t ht)
      · intro hG
        refine ⟨hIP s h, fun u hu ↦ ?_⟩
        obtain rfl := Option.some.inj (ht.symm.trans hu)
        exact (ih hrun (hF.2 t ht) (hgood s e t hF.1 hG.1 ht h)).mpr (hG.2 t ht)

/-- Where `I` makes `G` and `H` the same rule, and the events that keep to it preserve
`I`, the runs that meet one meet the other.  `F` is a rule that all events of the run
keep to. -/
theorem meets_iff_meets {F G H : σ → ε → Prop} {I : σ → Prop}
    (hiff : ∀ s e, F s e → I s → (G s e ↔ H s e))
    (hstep : ∀ s e s', F s e → H s e → step s e = some s' → I s → I s') {s : σ} {es : List ε}
    (hF : Meets step F s es) (h : I s) : Meets step G s es ↔ Meets step H s es := by
  induction es generalizing s with
  | nil => exact Iff.rfl
  | cons e es ih =>
      constructor
      · rintro ⟨hG, hrest⟩
        have hH := (hiff s e hF.1 h).mp hG
        exact ⟨hH, fun t ht ↦ (ih (hF.2 t ht) (hstep s e t hF.1 hH ht h)).mp (hrest t ht)⟩
      · rintro ⟨hH, hrest⟩
        refine ⟨(hiff s e hF.1 h).mpr hH, fun t ht ↦ ?_⟩
        exact (ih (hF.2 t ht) (hstep s e t hF.1 hH ht h)).mpr (hrest t ht)

/-- A rule that an invariant of all steps implies is met by every run. -/
theorem meets_of_invariant {G : σ → ε → Prop} {I : σ → Prop}
    (hstep : ∀ s e s', step s e = some s' → I s → I s') (hG : ∀ s e, I s → G s e) {s : σ}
    (es : List ε) (h : I s) : Meets step G s es := by
  induction es generalizing s with
  | nil => trivial
  | cons e es ih => exact ⟨hG s e h, fun t ht ↦ ih (hstep s e t ht h)⟩

theorem countP_cons_toNat {counts : ε → Bool} (e : ε) (es : List ε) :
    (e :: es).countP counts = (counts e).toNat + es.countP counts := by
  rw [List.countP_cons, Nat.add_comm]
  cases counts e <;> rfl

/-- In a run that meets `G` no event brings the rank up, and each event that counts brings
it down until it is zero. -/
theorem exec_rank {I : σ → Prop} {G : σ → ε → Prop} {rank : σ → Nat} {counts : ε → Bool}
    (hstep : ∀ s e s', G s e → step s e = some s' → I s →
      I s' ∧ rank s' ≤ rank s - (counts e).toNat)
    {s s' : σ} {es : List ε} (hrun : exec step s es = some s') (hG : Meets step G s es) (h : I s) :
    I s' ∧ rank s' ≤ rank s - es.countP counts := by
  induction es generalizing s with
  | nil =>
      obtain rfl := Option.some.inj hrun
      exact ⟨h, Nat.le_refl _⟩
  | cons e es ih =>
      obtain ⟨t, ht, hrun⟩ := exec_cons.mp hrun
      obtain ⟨hI, hrank⟩ := hstep s e t hG.1 ht h
      obtain ⟨hI', hrank'⟩ := ih hrun (hG.2 t ht) hI
      refine ⟨hI', Nat.le_trans hrank' ?_⟩
      rw [countP_cons_toNat, ← Nat.sub_sub]
      exact Nat.sub_le_sub_right hrank _

/-- Events that count are paid for by the potential of the first state, and by what the
events of the run add to it. -/
theorem exec_potential {I : σ → Prop} {potential : σ → Nat} {counts : ε → Bool} {credit : ε → Nat}
    (hstep : ∀ s e s', step s e = some s' → I s →
      I s' ∧ (counts e).toNat + potential s' ≤ credit e + potential s)
    {s s' : σ} {es : List ε} (hrun : exec step s es = some s') (h : I s) :
    I s' ∧ es.countP counts + potential s' ≤ (es.map credit).sum + potential s := by
  induction es generalizing s with
  | nil =>
      obtain rfl := Option.some.inj hrun
      exact ⟨h, Nat.le_refl _⟩
  | cons e es ih =>
      obtain ⟨t, ht, hrun⟩ := exec_cons.mp hrun
      obtain ⟨hI, hpotential⟩ := hstep s e t ht h
      obtain ⟨hI', hpotential'⟩ := ih hrun hI
      refine ⟨hI', ?_⟩
      rw [countP_cons_toNat, List.map_cons, List.sum_cons]
      omega

/-- A rule that every event satisfies is met by every run. -/
theorem Meets.of_forall {G : σ → ε → Prop} (h : ∀ s e, G s e) (s : σ) (es : List ε) :
    Meets step G s es :=
  meets_of_invariant (I := fun _ ↦ True) (fun _ _ _ _ h ↦ h) (fun s e _ ↦ h s e) es trivial

/-- A rule for events only is met by a run if all its events keep to it. -/
theorem Meets.of_forall_mem {G : ε → Prop} {es : List ε} (h : ∀ e ∈ es, G e) (s : σ) :
    Meets step (fun _ ↦ G) s es := by
  induction es generalizing s with
  | nil => trivial
  | cons e es ih =>
      exact ⟨h e List.mem_cons_self,
        fun t _ ↦ ih (fun e' he' ↦ h e' (List.mem_cons_of_mem e he')) t⟩

/-- An invariant of all steps holds all along every run. -/
theorem always_of_invariant {I : σ → Prop} (hstep : ∀ s e s', step s e = some s' → I s → I s')
    {s : σ} (es : List ε) (h : I s) : Always step I s es :=
  always_of_meets (fun s e s' _ ↦ hstep s e s') (Meets.of_forall (fun _ _ ↦ trivial) s es) h

/-- A rule that can be decided event by event can be decided for a run. -/
instance Meets.decidable {G : σ → ε → Prop} [∀ s e, Decidable (G s e)] :
    ∀ (s : σ) (es : List ε), Decidable (Meets step G s es)
  | _, [] => .isTrue trivial
  | s, e :: es =>
      match h : step s e with
      | none => decidable_of_iff (G s e) (by simp [Meets, h])
      | some t =>
          have : Decidable (Meets step G t es) := Meets.decidable t es
          decidable_of_iff (G s e ∧ Meets step G t es) (by simp [Meets, h])

/-- What meets a rule meets every weaker one. -/
theorem Meets.mono {G H : σ → ε → Prop} (hGH : ∀ s e, G s e → H s e) {s : σ} {es : List ε}
    (h : Meets step G s es) : Meets step H s es := by
  induction es generalizing s with
  | nil => trivial
  | cons e es ih => exact ⟨hGH s e h.1, fun t ht ↦ ih (h.2 t ht)⟩

/-- What meets two rules meets both at once. -/
theorem Meets.and {G H : σ → ε → Prop} {s : σ} {es : List ε} (hG : Meets step G s es)
    (hH : Meets step H s es) : Meets step (fun s e ↦ G s e ∧ H s e) s es := by
  induction es generalizing s with
  | nil => trivial
  | cons e es ih => exact ⟨⟨hG.1, hH.1⟩, fun t ht ↦ ih (hG.2 t ht) (hH.2 t ht)⟩

/-- A run meets `G` if its first event does and the rest does. -/
theorem Meets.cons {G : σ → ε → Prop} {s t : σ} {e : ε} {es : List ε} (ht : step s e = some t)
    (hG : G s e) (h : Meets step G t es) : Meets step G s (e :: es) := by
  refine ⟨hG, fun u hu ↦ ?_⟩
  obtain rfl := Option.some.inj (ht.symm.trans hu)
  exact h

end Transition
