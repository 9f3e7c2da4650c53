import Mathlib.Data.List.Perm.Subperm
import TaskQ.DiWiring

namespace TaskQ.Di
open List

def Takes (providers : Providers) (t d : PyClass) : Prop := ∃ o, Asks providers t (d, o)

section
variable (providers : Providers) (shadow : List PyClass)

/-- A path of parameters leads from a factory to a shadowed class, through none of `seen`. -/
inductive Reaches (seen : List PyClass) : PyClass → Prop where
  | hit : t ∉ seen → Takes providers t d → d ∈ shadow → Reaches seen t
  | step : t ∉ seen → Takes providers t d → Reaches seen d → Reaches seen t

abbrev Derives : PyClass → Prop := Reaches providers shadow []

variable {providers shadow}

lemma Reaches.not_mem (h : Reaches providers shadow seen t) : t ∉ seen := by
  cases h with
  | hit h => exact h
  | step h => exact h

lemma Reaches.derives (h : Reaches providers shadow seen t) : Derives providers shadow t := by
  induction h with
  | hit _ ht hd => exact .hit not_mem_nil ht hd
  | step _ ht _ ih => exact .step not_mem_nil ht ih

lemma derives_of_takes (ht : Takes providers t d) (hd : d ∈ shadow ∨ Derives providers shadow d) :
    Derives providers shadow t := by
  rcases hd with hd | hd
  · exact .hit not_mem_nil ht hd
  · exact .step not_mem_nil ht hd

lemma derives_cases (h : Derives providers shadow t) :
    ∃ d, Takes providers t d ∧ (d ∈ shadow ∨ Derives providers shadow d) := by
  cases h with
  | hit _ ht hd => exact ⟨_, ht, .inl hd⟩
  | step _ ht hd => exact ⟨_, ht, .inr hd⟩

lemma Derives.provider (h : Derives providers shadow t) :
    ∃ entry, providers.lookup t = some entry ∧ entry.shape ≠ .value := by
  obtain ⟨d, ⟨o, entry, hentry, hshape, -⟩, -⟩ := derives_cases h
  exact ⟨entry, hentry, hshape⟩

lemma Reaches.cut (h : Reaches providers shadow seen u) (t : PyClass) :
    Reaches providers shadow (t :: seen) u ∨
      ∃ d, Takes providers t d ∧ (d ∈ shadow ∨ Reaches providers shadow (t :: seen) d) := by
  induction h with
  | @hit u d hu ht hd =>
    by_cases heq : u = t
    · subst heq
      exact .inr ⟨d, ht, .inl hd⟩
    · exact .inl (.hit (not_mem_cons_of_ne_of_not_mem heq hu) ht hd)
  | @step u d hu ht _ ih =>
    rcases ih with ih | ih
    · by_cases heq : u = t
      · subst heq
        exact .inr ⟨d, ht, .inr ih⟩
      · exact .inl (.step (not_mem_cons_of_ne_of_not_mem heq hu) ht ih)
    · exact .inr ih

lemma Reaches.cases_fresh (h : Reaches providers shadow seen t) :
    ∃ d, Takes providers t d ∧ (d ∈ shadow ∨ Reaches providers shadow (t :: seen) d) :=
  (h.cut t).resolve_left fun h => h.not_mem mem_cons_self

end

section
variable {providers : Providers} {shadow : List PyClass}

def Hits (providers : Providers) (shadow : List PyClass) (t : PyClass) : Prop :=
  Derives providers shadow t ∨
    t ∈ shadow ∧ ∀ entry, providers.lookup t = some entry → entry.shape = .value

def Verdicts.Right (providers : Providers) (shadow : List PyClass) (verdict : Verdicts) : Prop :=
  ∀ t v, verdict.lookup t = some v →
    (v = true → Hits providers shadow t) ∧ (v = false → ¬ Derives providers shadow t)

structure Walked (providers : Providers) (shadow seen : List PyClass) (t : PyClass)
    (result : (Bool × Bool) × Verdicts) : Prop where
  right : result.2.Right providers shadow
  hit : result.1.1 = true → Hits providers shadow t
  miss : result.1.1 = false → ¬ Reaches providers shadow seen t
  clean : result.1.1 = false → result.1.2 = true → ¬ Derives providers shadow t

variable {verdict : Verdicts}

lemma Verdicts.Right.set (h : verdict.Right providers shadow)
    (hhit : v = true → Hits providers shadow t) (hmiss : v = false → ¬ Derives providers shadow t) :
    Verdicts.Right providers shadow (Dict.set t v verdict) := by
  intro t' v' hlook
  rw [Dict.lookup_set] at hlook
  split at hlook
  next heq =>
    cases hlook
    exact heq ▸ ⟨hhit, hmiss⟩
  · exact h t' v' hlook

lemma map_ok {x : Except ε α} {f : α → β} (h : x.map f = .ok b) : ∃ a, x = .ok a ∧ f a = b := by
  cases x with
  | error => cases h
  | ok a => exact ⟨a, rfl, Except.ok.inj h⟩

lemma map_error {x : Except ε α} {f : α → β} (h : x.map f = .error e) : x = .error e := by
  cases x with
  | error => exact congrArg _ (Except.error.inj h)
  | ok => cases h

lemma requests_cons_error (h : p.request passthrough = .error e) :
    requests passthrough (p :: ps) = requests passthrough ps := by
  rw [requests, filterMap_cons, h]
  rfl

lemma reachesAny_walked {walk : Verdicts → PyClass → Except DiError ((Bool × Bool) × Verdicts)}
    (hwalk : ∀ verdict t result, verdict.Right providers shadow → walk verdict t = .ok result →
      Walked providers shadow seen t result) (hright : verdict.Right providers shadow)
    (h : reachesAny shadow walk params verdict = .ok result) : result.2.Right providers shadow ∧
      (result.1.1 = true → ∃ r ∈ requests [] params, r.1 ∈ shadow ∨ Derives providers shadow r.1) ∧
      (result.1.1 = false → ∀ r ∈ requests [] params,
        r.1 ∉ shadow ∧ ¬ Reaches providers shadow seen r.1 ∧
          (result.1.2 = true → ¬ Derives providers shadow r.1)) := by
  induction params generalizing verdict result with
  | nil =>
    cases h
    refine ⟨hright, fun h => ?_, fun _ r hr => ?_⟩
    · cases h
    · cases hr
  | cons p ps ih =>
    rw [reachesAny] at h
    split at h
    · cases h
    next hp =>
      rw [requests_cons_error hp]
      exact ih hright h
    next hp =>
      rw [requests_cons hp]
      exact ih hright h
    next r hp =>
      rw [requests_cons hp, Option.toList_some, singleton_append]
      split at h
      · cases h
      next sub hsub =>
        have hwalked := hwalk verdict r.1 sub hright hsub
        split at h
        next hstop =>
          cases h
          refine ⟨hwalked.right, fun _ => ⟨r, mem_cons_self, ?_⟩, fun h => by cases h⟩
          rcases hstop with hmem | hhit
          · exact .inl hmem
          rcases hwalked.hit hhit with hder | ⟨hmem, -⟩
          · exact .inr hder
          · exact .inl hmem
        next hgo =>
          obtain ⟨hmem, hmiss⟩ := not_or.mp hgo
          have hmiss := Bool.eq_false_iff.mpr hmiss
          obtain ⟨rest, hrest, rfl⟩ := map_ok h
          obtain ⟨hright', hhit', hmiss'⟩ := ih hwalked.right hrest
          refine ⟨hright', fun h => ?_, fun h => forall_mem_cons.mpr ⟨?_, fun r' hr' => ?_⟩⟩
          · obtain ⟨r', hr', hhit⟩ := hhit' h
            exact ⟨r', mem_cons_of_mem _ hr', hhit⟩
          · refine ⟨hmem, hwalked.miss hmiss, fun hclean => ?_⟩
            exact hwalked.clean hmiss (Bool.and_eq_true_iff.mp hclean).1
          · obtain ⟨hmem', hreach', hclean'⟩ := hmiss' h r' hr'
            exact ⟨hmem', hreach', fun hclean => hclean' (Bool.and_eq_true_iff.mp hclean).2⟩

lemma takes_iff (h : providers.lookup t = some entry) (hshape : entry.shape ≠ .value) :
    Takes providers t d ↔ ∃ r ∈ requests [] entry.params, r.1 = d := by
  constructor
  · rintro ⟨o, entry', h', -, hr⟩
    rw [h] at h'
    cases h'
    exact ⟨(d, o), hr, rfl⟩
  · rintro ⟨⟨d, o⟩, hr, rfl⟩
    exact ⟨o, entry, h, hshape, hr⟩

lemma reachesTracked_walked (depth : Nat) {seen : List PyClass} (hnodup : seen.Nodup)
    (hseen : seen ⊆ providers.map Prod.fst) (hdepth : providers.length < seen.length + depth)
    (hright : verdict.Right providers shadow)
    (h : reachesTracked providers shadow depth seen verdict t = .ok result) :
    Walked providers shadow seen t result := by
  induction depth generalizing seen verdict t result with
  | zero =>
    have hle := (hnodup.subperm hseen).length_le
    rw [length_map] at hle
    omega
  | succ depth ih =>
    rw [reachesTracked] at h
    split at h
    next v hv =>
      cases h
      obtain ⟨hhit, hmiss⟩ := hright t v hv
      exact ⟨hright, hhit, fun hf hr => hmiss hf hr.derives, fun hf _ => hmiss hf⟩
    · split at h
      next hmem =>
        cases h
        refine ⟨hright, fun h => ?_, fun _ hr => hr.not_mem hmem, fun _ h => ?_⟩
        · cases h
        · cases h
      next hfresh =>
        split at h
        next hleaf =>
          cases h
          have hvalue : ∀ entry, providers.lookup t = some entry → entry.shape = .value := by
            intro entry hentry
            rw [hentry] at hleaf
            by_contra hshape
            rw [Option.filter_some, if_pos (decide_eq_true hshape)] at hleaf
            cases hleaf
          have hnot : ¬ Derives providers shadow t := by
            intro hd
            obtain ⟨entry, hentry, hshape⟩ := Derives.provider hd
            exact hshape (hvalue entry hentry)
          have hhit : decide (t ∈ shadow) = true → Hits providers shadow t :=
            fun hmem => .inr ⟨of_decide_eq_true hmem, hvalue⟩
          exact ⟨hright.set hhit fun _ => hnot, hhit, fun _ hr => hnot hr.derives, fun _ _ => hnot⟩
        next entry hentry =>
          obtain ⟨hlook, hshape⟩ := Option.filter_eq_some_iff.mp hentry
          have hshape := of_decide_eq_true hshape
          obtain ⟨walked, hwalk, rfl⟩ := map_ok h
          have hkey := Dict.mem_keys_of_lookup hlook
          obtain ⟨hright', hhit, hmiss⟩ := reachesAny_walked (fun verdict' t' result' hr hw =>
            ih (nodup_cons.mpr ⟨hfresh, hnodup⟩) (cons_subset.mpr ⟨hkey, hseen⟩)
              (by rw [length_cons]; omega) hr hw) hright hwalk
          have hhit' : walked.1.1 = true → Hits providers shadow t := by
            intro htrue
            obtain ⟨r, hr, hd⟩ := hhit htrue
            exact .inl (derives_of_takes ((takes_iff hlook hshape).mpr ⟨r, hr, rfl⟩) hd)
          have hmiss' : walked.1.1 = false → ¬ Reaches providers shadow seen t := by
            intro hfalse hreach
            obtain ⟨d, ht, hd⟩ := hreach.cases_fresh
            obtain ⟨r, hr, rfl⟩ := (takes_iff hlook hshape).mp ht
            obtain ⟨hmem, hnot, -⟩ := hmiss hfalse r hr
            exact hd.elim hmem hnot
          have hclean' : walked.1.1 = false → walked.1.2 = true →
              ¬ Derives providers shadow t := by
            intro hfalse hclean hd
            obtain ⟨d, ht, hd⟩ := derives_cases hd
            obtain ⟨r, hr, rfl⟩ := (takes_iff hlook hshape).mp ht
            obtain ⟨hmem, -, hnot⟩ := hmiss hfalse r hr
            exact hd.elim hmem (hnot hclean)
          split
          next hclean =>
            exact ⟨hright'.set hhit' fun hf => hclean' hf hclean, hhit', hmiss', hclean'⟩
          · exact ⟨hright', hhit', hmiss', hclean'⟩

lemma mem_derivedFrom (hdepth : providers.length < depth)
    (hright : verdict.Right providers shadow) (hrest : ∀ x ∈ rest, providers.lookup x.1 = some x.2)
    (h : derivedFrom providers shadow depth rest verdict = .ok derived) :
    t ∈ derived ↔ Derives providers shadow t ∧ t ∈ rest.map Prod.fst := by
  induction rest generalizing verdict derived with
  | nil =>
    cases h
    simp
  | cons x rest ih =>
    obtain ⟨u, entry⟩ := x
    obtain ⟨hu, hrest⟩ := forall_mem_cons.mp hrest
    rw [map_cons, mem_cons, and_or_left]
    rw [derivedFrom] at h
    split at h
    next hvalue =>
      rw [ih hright hrest h]
      refine ⟨.inr, fun h => h.resolve_left ?_⟩
      rintro ⟨hd, rfl⟩
      obtain ⟨entry', hentry', hshape⟩ := Derives.provider hd
      rw [hu] at hentry'
      cases hentry'
      exact hshape hvalue
    next hshape =>
      split at h
      · cases h
      next walked hwalk =>
        have hw := reachesTracked_walked depth nodup_nil (nil_subset _)
          (by rw [length_nil]; omega) hright hwalk
        obtain ⟨derived', hderived', rfl⟩ := map_ok h
        have ih := ih hw.right hrest hderived'
        split
        next hhit =>
          rw [mem_cons, ih]
          have hder : Derives providers shadow u := by
            rcases hw.hit hhit with hd | ⟨-, hvalue⟩
            · exact hd
            · exact absurd (hvalue entry hu) hshape
          refine or_congr_left ⟨?_, fun h => h.2⟩
          rintro rfl
          exact ⟨hder, rfl⟩
        next hmiss =>
          rw [ih]
          refine ⟨.inr, fun h => h.resolve_left ?_⟩
          rintro ⟨hd, rfl⟩
          exact hw.miss (Bool.eq_false_iff.mpr hmiss) hd

lemma mem_shadowDerivedProviders (hdist : (providers.map Prod.fst).Nodup)
    (h : shadowDerivedProviders providers shadow = .ok derived) :
    t ∈ derived ↔ Derives providers shadow t := by
  have hright : Verdicts.Right providers shadow [] := fun t v h => by cases h
  rw [mem_derivedFrom (Nat.lt_succ_self _) hright
    (fun x hx => (Dict.mem_iff_lookup hdist).mp hx) h]
  refine ⟨And.left, fun hd => ⟨hd, ?_⟩⟩
  obtain ⟨entry, hentry, -⟩ := Derives.provider hd
  exact Dict.mem_keys_of_lookup hentry

lemma reachesAny_error {walk : Verdicts → PyClass → Except DiError ((Bool × Bool) × Verdicts)}
    (h : reachesAny shadow walk params verdict = .error e) :
    (∃ p ∈ params, p.request [] = .error e) ∨ ∃ verdict t, walk verdict t = .error e := by
  induction params generalizing verdict with
  | nil => cases h
  | cons p params ih =>
    have hrest : ∀ {verdict}, reachesAny shadow walk params verdict = .error e →
        (∃ q ∈ p :: params, q.request [] = .error e) ∨ ∃ verdict t, walk verdict t = .error e :=
      fun h => (ih h).imp_left fun ⟨q, hq, he⟩ => ⟨q, mem_cons_of_mem _ hq, he⟩
    rw [reachesAny] at h
    split at h
    · cases h
      exact .inl ⟨p, mem_cons_self, ‹_›⟩
    · exact hrest h
    · exact hrest h
    split at h
    · cases h
      exact .inr ⟨_, _, ‹_›⟩
    split at h
    · cases h
    · exact hrest (map_error h)

/-- Unwrapping the annotation of a provider's parameter raises. -/
def Malformed (providers : Providers) (e : DiError) : Prop :=
  ∃ t entry, providers.lookup t = some entry ∧ ∃ p ∈ entry.params, p.request [] = .error e

lemma reachesTracked_error
    (h : reachesTracked providers shadow depth seen verdict t = .error e) : Malformed providers e := by
  induction depth generalizing seen verdict t with
  | zero => cases h
  | succ depth ih =>
    rw [reachesTracked] at h
    split at h
    · cases h
    split at h
    · cases h
    split at h
    · cases h
    next entry hentry =>
      rcases reachesAny_error (map_error h) with hp | ⟨verdict, t, hw⟩
      · exact ⟨t, entry, (Option.filter_eq_some_iff.mp hentry).1, hp⟩
      · exact ih hw

lemma derivedFrom_error (h : derivedFrom providers shadow depth rest verdict = .error e) :
    Malformed providers e := by
  induction rest generalizing verdict with
  | nil => cases h
  | cons x rest ih =>
    rw [derivedFrom] at h
    split at h
    · exact ih h
    split at h
    · cases h
      exact reachesTracked_error ‹_›
    · exact ih (map_error h)

lemma derives_iff :
    Derives providers shadow t ↔ ∃ d ∈ shadow, Relation.TransGen (Takes providers) t d := by
  constructor
  · intro h
    induction h with
    | hit _ ht hd => exact ⟨_, hd, .single ht⟩
    | step _ ht _ ih =>
      obtain ⟨d, hd, hpath⟩ := ih
      exact ⟨d, hd, .head ht hpath⟩
  · rintro ⟨d, hd, hpath⟩
    induction hpath using Relation.TransGen.head_induction_on with
    | single ht => exact derives_of_takes ht (.inl hd)
    | head ht _ ih => exact derives_of_takes ht (.inr ih)

/-- The derived providers are those from which a path leads to a shadowed class, in whatever order
the registry is walked; only a malformed annotation makes the walk raise. -/
theorem shadow_derivation_exact (providers : Providers) (shadow : List PyClass)
    (hdistinct : (providers.map Prod.fst).Nodup) :
    (∀ derived, shadowDerivedProviders providers shadow = .ok derived →
      (∀ t, t ∈ derived ↔ ∃ d ∈ shadow, Relation.TransGen (Takes providers) t d) ∧
      ∀ providers' derived', providers'.Perm providers →
        shadowDerivedProviders providers' shadow = .ok derived' → ∀ t, t ∈ derived' ↔ t ∈ derived) ∧
    ∀ e, shadowDerivedProviders providers shadow = .error e → Malformed providers e := by
  refine ⟨fun derived h => ⟨fun t => ?_, fun providers' derived' hperm h' t => ?_⟩,
    fun e => derivedFrom_error⟩
  · rw [mem_shadowDerivedProviders hdistinct h, derives_iff]
  have hdistinct' := (hperm.map Prod.fst).nodup_iff.mpr hdistinct
  have hsame : Takes providers' = Takes providers := by
    funext t d
    simp only [Takes, Asks, ← Dict.mem_iff_lookup hdistinct, ← Dict.mem_iff_lookup hdistinct',
      hperm.mem_iff]
  rw [mem_shadowDerivedProviders hdistinct h, mem_shadowDerivedProviders hdistinct' h',
    derives_iff, derives_iff, hsame]

def ring : Providers :=
  let takes n := { name := "x", variadic := false, hint := some (.cls (.user n)), hasDefault := false }
  [(.user 0, ⟨.loop, .syncCallable, none, [takes 1]⟩),
    (.user 1, ⟨.loop, .syncCallable, none, [takes 0, takes 2]⟩)]

theorem ring_derived : ∃ d ∈ [PyClass.user 2], Relation.TransGen (Takes ring) (.user 0) d :=
  (((shadow_derivation_exact ring [.user 2] (by decide)).1 [.user 0, .user 1] rfl).1 _).mp
    (by decide)

end

end TaskQ.Di
