import Mathlib.Logic.Basic

namespace Runs
open Option

/-- Reading a guarded step back: the guard holds and the result is the one written. -/
lemma matched {p : Prop} [Decidable p] {a b : α} (h : (if p then some a else none) = some b) :
    p ∧ b = a := by
  obtain ⟨hp, ha⟩ := ite_none_right_eq_some.mp h
  exact ⟨hp, (some.inj ha).symm⟩

/-- The states reachable from `s0` when every step taken meets `ok`. -/
inductive Reach (step : σ → α → Option σ) (ok : σ → α → Prop) (s0 : σ) : σ → Prop where
  | start : Reach step ok s0 s0
  | next : Reach step ok s0 s → ok s a → step s a = some s' → Reach step ok s0 s'

variable {I : σ → Prop}

lemma Reach.invariant (h : Reach step ok s0 s) (h0 : I s0)
    (hI : ∀ s a s', I s → ok s a → step s a = some s' → I s') : I s := by
  induction h with
  | start => exact h0
  | next _ hok hs ih => exact hI _ _ _ ih hok hs

lemma Reach.mono (h : Reach step ok s0 s) (hok : ∀ s a, ok s a → ok' s a) :
    Reach step ok' s0 s := by
  induction h with
  | start => exact .start
  | next _ ha hs ih => exact .next ih (hok _ _ ha) hs

lemma Reach.mono_of_invariant (h : Reach step ok s0 s) (h0 : I s0)
    (hI : ∀ s a s', I s → ok s a → step s a = some s' → I s')
    (hok : ∀ s a, I s → ok s a → ok' s a) : Reach step ok' s0 s := by
  induction h with
  | start => exact .start
  | next hreach ha hs ih => exact .next ih (hok _ _ (hreach.invariant h0 hI) ha) hs

lemma Reach.trans (h : Reach step ok s0 s) (h' : Reach step ok s s') : Reach step ok s0 s' := by
  induction h' with
  | start => exact h
  | next _ ha hs ih => exact .next ih ha hs

lemma Reach.exists_of_descent {P Q : σ → Prop} (rank : σ → Nat) (h : P s)
    (hstep : ∀ s, P s → Q s ∨ ∃ a s', ok s a ∧ step s a = some s' ∧ P s' ∧ rank s' < rank s) :
    ∃ u, Reach step ok s u ∧ P u ∧ Q u := by
  induction hn : rank s using Nat.strongRecOn generalizing s with
  | ind n ih =>
    rcases hstep s h with hQ | ⟨a, s', hok, hs, hP, hlt⟩
    · exact ⟨s, .start, h, hQ⟩
    · obtain ⟨u, hu, hPu, hQu⟩ := ih (rank s') (hn ▸ hlt) hP rfl
      exact ⟨u, (Reach.next .start hok hs).trans hu, hPu, hQu⟩

/-- A fixed schedule, run from `s`; `none` when some step of it is refused. -/
def exec (step : σ → α → Option σ) : σ → List α → Option σ
  | s, [] => some s
  | s, a :: l => (step s a).bind fun s' => exec step s' l

lemma exec_invariant (h : exec step s l = some s') (hs : I s)
    (hI : ∀ s a s', a ∈ l → I s → step s a = some s' → I s') : I s' := by
  induction l generalizing s with
  | nil =>
    cases h
    exact hs
  | cons a l ih =>
    obtain ⟨u, hu, he⟩ := bind_eq_some_iff.mp h
    exact ih he (hI s a u List.mem_cons_self hs hu)
      fun s b s' hb => hI s b s' (List.mem_cons_of_mem _ hb)

/-- If one step of a schedule turns `I` into `J` and the others keep both, `J` holds at its
end. -/
lemma exec_turn {I J : σ → Prop} (h : exec step s l = some s') (ha : a ∈ l) (hs : I s)
    (hI : ∀ s b s', b ∈ l → I s → step s b = some s' → I s')
    (hJ : ∀ s b s', b ∈ l → J s → step s b = some s' → J s')
    (ht : ∀ s s', I s → step s a = some s' → J s') : J s' := by
  induction l generalizing s with
  | nil => cases ha
  | cons b l ih =>
    obtain ⟨u, hu, he⟩ := bind_eq_some_iff.mp h
    have hI' := fun s c s' (hc : c ∈ l) => hI s c s' (List.mem_cons_of_mem _ hc)
    have hJ' := fun s c s' (hc : c ∈ l) => hJ s c s' (List.mem_cons_of_mem _ hc)
    rcases List.mem_cons.mp ha with rfl | ha
    · exact exec_invariant he (ht s u hs hu) hJ'
    · exact ih he ha (hI s b u List.mem_cons_self hs hu) hI' hJ'

def final (step : σ → α → Option σ) (s : σ) (l : List α) : σ := (exec step s l).getD s

lemma exec_final (h : (exec step s l).isSome = true) : exec step s l = some (final step s l) := by
  obtain ⟨s', hs⟩ := isSome_iff_exists.mp h
  rw [final, hs, getD_some]

lemma step_final (h : (step s a).isSome = true) : step s a = some (final step s [a]) := by
  obtain ⟨s', hs⟩ := isSome_iff_exists.mp h
  simp [final, exec, hs]

/-- Every step of a schedule meets `ok` in the state it is taken from. -/
def Meets (step : σ → α → Option σ) (ok : σ → α → Prop) : σ → List α → Prop
  | _, [] => True
  | s, a :: l => ok s a ∧ ∀ s', step s a = some s' → Meets step ok s' l

lemma Reach.of_exec (h : exec step s l = some s') (hok : Meets step ok s l) :
    Reach step ok s s' := by
  induction l generalizing s with
  | nil =>
    obtain rfl : s = s' := by simpa only [exec, some.injEq] using h
    exact .start
  | cons a l ih =>
    obtain ⟨u, hu, he⟩ := bind_eq_some_iff.mp h
    exact (Reach.next .start hok.1 hu).trans (ih he (hok.2 u hu))

lemma meets_true (s : σ) (l : List α) : Meets step (fun _ _ => True) s l := by
  induction l generalizing s with
  | nil => trivial
  | cons a l ih => exact ⟨trivial, fun s' _ => ih s'⟩

lemma Reach.of_final (h : (exec step s l).isSome = true) :
    Reach step (fun _ _ => True) s (final step s l) :=
  .of_exec (exec_final h) (meets_true s l)

def checks (step : σ → α → Option σ) (ok : σ → α → Bool) : σ → List α → Bool
  | _, [] => true
  | s, a :: l => ok s a && (step s a).all fun s' => checks step ok s' l

lemma Meets.of_checks (okb : σ → α → Bool) (h : checks step okb s l = true)
    (hok : ∀ s a, okb s a = true → ok s a) : Meets step ok s l := by
  induction l generalizing s with
  | nil => trivial
  | cons a l ih =>
    simp only [checks, Bool.and_eq_true] at h
    refine ⟨hok s a h.1, fun s' hs => ih ?_⟩
    simpa [hs] using h.2

lemma Reach.of_decide [∀ s a, Decidable (ok s a)] (h : (exec step s l).isSome = true)
    (hok : checks step (fun s a => decide (ok s a)) s l = true) :
    Reach step ok s (final step s l) :=
  .of_exec (exec_final h) (.of_checks _ hok fun _ _ => of_decide_eq_true)

end Runs

namespace Positions

lemma of_concat {l : List α} {i : Nat} (h : (l ++ [b])[i]? = some c) :
    l[i]? = some c ∨ i = l.length ∧ c = b := by
  rw [List.getElem?_append] at h
  split at h
  · exact .inl h
  rw [List.getElem?_singleton] at h
  split at h
  · exact .inr ⟨by omega, (Option.some.inj h).symm⟩
  · cases h

lemma of_set {l : List α} {e i : Nat} (h : (l.set e b)[i]? = some c) :
    i = e ∧ c = b ∨ i ≠ e ∧ l[i]? = some c := by
  rw [List.getElem?_set] at h
  split at h
  next he =>
    split at h
    · exact .inl ⟨he.symm, (Option.some.inj h).symm⟩
    · cases h
  next he => exact .inr ⟨fun hi => he hi.symm, h⟩

end Positions
