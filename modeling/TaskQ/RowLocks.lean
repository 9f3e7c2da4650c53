import Mathlib.Logic.Function.Basic

namespace RowLocks
open List

/-- A row under READ COMMITTED: its committed version and the draft of the lock's holder. -/
structure Slot (τ ρ : Type) where
  base : Option ρ
  draft : Option (τ × ρ)

/-- The version transaction `t` reads: its own draft if it has one, else the committed row. -/
def Slot.view [DecidableEq τ] (t : τ) (s : Slot τ ρ) : Option ρ :=
  match s.draft with
  | some (o, r) => if o = t then some r else s.base
  | none => s.base

def Slot.free [DecidableEq τ] (t : τ) (s : Slot τ ρ) : Bool :=
  match s.draft with
  | some (o, _) => o = t
  | none => true

def Slot.write (t : τ) (r : ρ) (s : Slot τ ρ) : Slot τ ρ := ⟨s.base, some (t, r)⟩

def Slot.commit [DecidableEq τ] (t : τ) (s : Slot τ ρ) : Slot τ ρ :=
  match s.draft with
  | some (o, r) => if o = t then ⟨some r, none⟩ else s
  | none => s

def Slot.rollback [DecidableEq τ] (t : τ) (s : Slot τ ρ) : Slot τ ρ :=
  match s.draft with
  | some (o, _) => if o = t then ⟨s.base, none⟩ else s
  | none => s

variable {s : Slot τ ρ}

section
variable [DecidableEq τ]

lemma Slot.view_of_draft (h : s.draft = some (t, r)) : s.view t = some r := by
  simp [Slot.view, h]

lemma Slot.view_undrafted (h : ∀ r, s.draft ≠ some (t, r)) : s.view t = s.base := by
  unfold Slot.view
  split
  · rename_i o r hd
    have ho : o ≠ t := fun he => h r (he ▸ hd)
    rw [if_neg ho]
  · rfl

lemma Slot.draft_or_base (h : s.view t = some r) :
    s.draft = some (t, r) ∨ (∀ r', s.draft ≠ some (t, r')) ∧ s.base = some r := by
  by_cases hd : ∃ r', s.draft = some (t, r')
  · obtain ⟨r', hr'⟩ := hd
    rw [Slot.view_of_draft hr', Option.some.injEq] at h
    exact .inl (h ▸ hr')
  · have hn : ∀ r', s.draft ≠ some (t, r') := fun r' hr' => hd ⟨r', hr'⟩
    exact .inr ⟨hn, (Slot.view_undrafted hn).symm.trans h⟩

lemma Slot.exists_view (h : s.base = some b) (t : τ) : ∃ r, s.view t = some r := by
  by_cases hd : ∃ r, s.draft = some (t, r)
  · obtain ⟨r, hr⟩ := hd
    exact ⟨r, Slot.view_of_draft hr⟩
  · exact ⟨b, (Slot.view_undrafted fun r hr => hd ⟨r, hr⟩).trans h⟩

lemma Slot.owner_of_free (h : s.free t = true) (hd : s.draft = some (u, r)) : u = t := by
  simpa [Slot.free, hd] using h

end

@[simp] lemma Slot.write_base {s : Slot τ ρ} : (s.write t r).base = s.base := rfl

@[simp] lemma Slot.write_draft {s : Slot τ ρ} : (s.write t r).draft = some (t, r) := rfl

section
variable [DecidableEq τ]

@[simp] lemma Slot.commit_base {s : Slot τ ρ} : (s.commit t).base = s.view t := by
  unfold Slot.commit Slot.view
  split
  · split <;> rfl
  · rfl

@[simp] lemma Slot.rollback_base {s : Slot τ ρ} : (s.rollback t).base = s.base := by
  unfold Slot.rollback
  split
  · split <;> rfl
  · rfl

lemma Slot.commit_draft_some :
    (s.commit t).draft = some (u, r) ↔ s.draft = some (u, r) ∧ u ≠ t := by
  unfold Slot.commit
  split
  · rename_i o r' hd
    by_cases ho : o = t
    · simp only [ho, if_true, hd, reduceCtorEq, Option.some.injEq, Prod.mk.injEq, false_iff]
      rintro ⟨⟨rfl, -⟩, hn⟩
      exact hn rfl
    · simp only [ho, if_false, hd, Option.some.injEq, Prod.mk.injEq, iff_self_and]
      rintro ⟨rfl, -⟩
      exact ho
  · rename_i hd
    simp [hd]

lemma Slot.rollback_draft : (s.rollback t).draft = (s.commit t).draft := by
  unfold Slot.rollback Slot.commit
  split
  · split <;> rfl
  · rfl

lemma Slot.rollback_draft_some :
    (s.rollback t).draft = some (u, r) ↔ s.draft = some (u, r) ∧ u ≠ t := by
  rw [Slot.rollback_draft, Slot.commit_draft_some]

end

def Slot.holds (s : Slot τ ρ) (r : ρ) : Prop := s.base = some r ∨ ∃ t, s.draft = some (t, r)

lemma Slot.holds_of_view [DecidableEq τ] (h : s.view t = some r) : s.holds r := by
  rcases Slot.draft_or_base h with hd | ⟨-, hb⟩
  · exact .inr ⟨t, hd⟩
  · exact .inl hb

lemma Slot.holds_of_commit [DecidableEq τ] (h : (s.commit t).holds r) : s.holds r := by
  rcases h with hb | ⟨u, hd⟩
  · exact Slot.holds_of_view (Slot.commit_base.symm.trans hb)
  · exact .inr ⟨u, (Slot.commit_draft_some.mp hd).1⟩

lemma Slot.holds_of_rollback [DecidableEq τ] (h : (s.rollback t).holds r) : s.holds r := by
  rcases h with hb | ⟨u, hd⟩
  · exact .inl (Slot.rollback_base.symm.trans hb)
  · exact .inr ⟨u, (Slot.rollback_draft_some.mp hd).1⟩

lemma Slot.commit_of_not_drafted [DecidableEq τ]
    (h : ∀ r, s.draft ≠ some (t, r)) : s.commit t = s := by
  unfold Slot.commit
  split
  · rename_i o r hd
    have ho : o ≠ t := fun he => h r (he ▸ hd)
    rw [if_neg ho]
  · rfl

def put (t : τ) (w : κ → Option ρ) (tb : κ → Slot τ ρ) : κ → Slot τ ρ := fun k =>
  match w k with
  | some r => (tb k).write t r
  | none => tb k

@[simp] lemma put_base {tb : κ → Slot τ ρ} : (put t w tb k).base = (tb k).base := by
  unfold put
  split <;> rfl

variable {tb : κ → Slot τ ρ}

lemma put_of_some (h : w k = some r) : put t w tb k = (tb k).write t r := by
  simp [put, h]

lemma put_of_none (h : w k = none) : put t w tb k = tb k := by
  simp [put, h]

lemma put_draft_some : (put t w tb k).draft = some (u, r) ↔
    w k = some r ∧ u = t ∨ w k = none ∧ (tb k).draft = some (u, r) := by
  cases hw : w k with
  | some r' =>
    rw [put_of_some hw, Slot.write_draft]
    simp only [Option.some.injEq, Prod.mk.injEq, reduceCtorEq, false_and, or_false]
    exact ⟨fun h => ⟨h.2, h.1.symm⟩, fun h => ⟨h.2.symm, h.1⟩⟩
  | none =>
    rw [put_of_none hw]
    simp

lemma put_holds_lock [DecidableEq τ] (h : (tb k).draft = some (u, r))
    (hf : ∀ r', w k = some r' → (tb k).free t = true) :
    ∃ r', (put t w tb k).draft = some (u, r') := by
  cases hw : w k with
  | none => exact ⟨r, (congrArg Slot.draft (put_of_none hw)).trans h⟩
  | some r' =>
    obtain rfl := Slot.owner_of_free (hf r' hw) h
    exact ⟨r', congrArg Slot.draft (put_of_some hw)⟩

def store (w : κ → Option ρ) (tb : κ → Slot τ ρ) : κ → Slot τ ρ := fun k =>
  match w k with
  | some r => ⟨some r, none⟩
  | none => tb k

lemma store_of_some (h : w k = some r) : store w tb k = ⟨some r, none⟩ := by
  simp [store, h]

lemma store_of_none (h : w k = none) : store w tb k = tb k := by
  simp [store, h]

lemma store_draft_some (h : (store w tb k).draft = some d) :
    w k = none ∧ (tb k).draft = some d := by
  cases hw : w k with
  | some r =>
    rw [store_of_some hw] at h
    cases h
  | none =>
    rw [store_of_none hw] at h
    exact ⟨rfl, h⟩

/-- A statement of transaction `t`, with the end of the transaction if it `commits`. -/
def statement [DecidableEq τ] (t : τ) (commits : Bool) (w : κ → Option ρ) (tb : κ → Slot τ ρ) :
    κ → Slot τ ρ := fun k =>
  match commits with
  | true => (put t w tb k).commit t
  | false => put t w tb k

section
variable [DecidableEq τ]

lemma statement_untouched (hw : w k = none)
    (hd : ∀ r, (tb k).draft ≠ some (t, r)) : statement t commits w tb k = tb k := by
  cases commits with
  | true => exact (congrArg (Slot.commit t) (put_of_none hw)).trans (Slot.commit_of_not_drafted hd)
  | false => exact put_of_none hw

lemma statement_draft (h : (statement t commits w tb k).draft = some (u, r)) :
    (statement t commits w tb k).base = (tb k).base ∧ (commits = true → u ≠ t) ∧
      (w k = some r ∧ u = t ∨ w k = none ∧ (tb k).draft = some (u, r)) := by
  cases commits with
  | true =>
    obtain ⟨hd, hu⟩ := Slot.commit_draft_some.mp h
    have hn : ∀ r', (put t w tb k).draft ≠ some (t, r') := by
      intro r' hr'
      rw [hd] at hr'
      exact hu (Prod.mk.inj (Option.some.inj hr')).1
    refine ⟨?_, fun _ => hu, put_draft_some.mp hd⟩
    exact Slot.commit_base.trans ((Slot.view_undrafted hn).trans put_base)
  | false => exact ⟨put_base, nofun, put_draft_some.mp h⟩

lemma statement_base (h : (statement t commits w tb k).base = some r) : (tb k).base = some r ∨
      commits = true ∧ (w k = some r ∨ w k = none ∧ (tb k).draft = some (t, r)) := by
  cases commits with
  | true =>
    rcases Slot.draft_or_base (Slot.commit_base.symm.trans h) with hd | ⟨-, hb⟩
    · rcases put_draft_some.mp hd with ⟨hw, -⟩ | hd'
      · exact .inr ⟨rfl, .inl hw⟩
      · exact .inr ⟨rfl, .inr hd'⟩
    · exact .inl (put_base.symm.trans hb)
  | false => exact .inl (put_base.symm.trans h)

lemma exists_statement_base (h : (tb k).base = some b) :
    ∃ r, (statement t commits w tb k).base = some r := by
  have hput : (put t w tb k).base = some b := put_base.trans h
  cases commits with
  | true =>
    obtain ⟨r, hr⟩ := Slot.exists_view hput t
    exact ⟨r, Slot.commit_base.trans hr⟩
  | false => exact ⟨b, hput⟩

lemma statement_holds
    (h : (statement t commits w tb k).holds r) : (tb k).holds r ∨ w k = some r := by
  rcases h with hb | ⟨u, hd⟩
  · rcases statement_base hb with hb | ⟨-, hw | ⟨-, hd⟩⟩
    · exact .inl (.inl hb)
    · exact .inr hw
    · exact .inl (.inr ⟨t, hd⟩)
  · rcases (statement_draft hd).2.2 with ⟨hw, -⟩ | ⟨-, hd⟩
    · exact .inr hw
    · exact .inl (.inr ⟨u, hd⟩)

lemma statement_locks (h : (w k).isSome = true ∨ ∃ r, (tb k).draft = some (t, r)) :
    ∃ r, (statement t false w tb k).draft = some (t, r) := by
  cases hw : w k with
  | some r => exact ⟨r, congrArg Slot.draft (put_of_some hw)⟩
  | none =>
    rcases h with h | ⟨r, hd⟩
    · rw [hw] at h
      cases h
    · exact ⟨r, (congrArg Slot.draft (put_of_none hw)).trans hd⟩

lemma statement_commits (h : (w k).isSome = true ∨ ∃ r, (tb k).draft = some (t, r)) :
    ∃ r, (statement t true w tb k).base = some r ∧
      (w k = some r ∨ w k = none ∧ (tb k).draft = some (t, r)) := by
  obtain ⟨r, hd⟩ := statement_locks h
  exact ⟨r, Slot.commit_base.trans (Slot.view_of_draft hd),
    (put_draft_some.mp hd).imp_left And.left⟩

end

def visible [DecidableEq τ] (t : τ) (l : List (Slot τ ρ)) : List ρ := l.filterMap (Slot.view t)

def committed (l : List (Slot τ ρ)) : List ρ := l.filterMap Slot.base

def insertRows (t : τ) (rows : List ρ) (l : List (Slot τ ρ)) : List (Slot τ ρ) :=
  l ++ rows.map fun r => ⟨none, some (t, r)⟩

/-- An `UPDATE` of a listed table: `f` names the new version of each row it touches. -/
def rewrite [DecidableEq τ] (t : τ) (f : ρ → Option ρ) (l : List (Slot τ ρ)) : List (Slot τ ρ) :=
  l.map fun s =>
    match (s.view t).bind f with
    | some r => s.write t r
    | none => s

def rewriteFree [DecidableEq τ] (t : τ) (f : ρ → Option ρ) (l : List (Slot τ ρ)) : Bool :=
  l.all fun s => ((s.view t).bind f).isNone || s.free t

@[simp] lemma committed_insertRows {l : List (Slot τ ρ)} :
    committed (insertRows t rows l) = committed l := by
  simp [committed, insertRows]

variable {l : List (Slot τ ρ)}

lemma committed_append_base {rows : List ρ} :
    committed (l ++ rows.map fun r => ⟨some r, none⟩) = committed l ++ rows := by
  rw [committed, filterMap_append, filterMap_map]
  exact congrArg _ (filterMap_some (l := rows))

@[simp] lemma committed_map_commit [DecidableEq τ] {l : List (Slot τ ρ)} :
    committed (l.map (Slot.commit t)) = visible t l := by
  simp only [committed, visible, filterMap_map]
  exact congrArg (fun f => l.filterMap f) (funext fun s => Slot.commit_base)

@[simp] lemma committed_map_rollback [DecidableEq τ] {l : List (Slot τ ρ)} :
    committed (l.map (Slot.rollback t)) = committed l := by
  simp only [committed, filterMap_map]
  exact congrArg (fun f => l.filterMap f) (funext fun s => Slot.rollback_base)

def InsertOnly (l : List (Slot τ ρ)) : Prop :=
  ∀ sl ∈ l, ∀ d, sl.draft = some d → sl.base = none

lemma InsertOnly.insertRows (h : InsertOnly l) : InsertOnly (insertRows t rows l) := by
  intro sl hsl d hd
  rcases mem_append.mp hsl with hm | hm
  · exact h sl hm d hd
  · obtain ⟨r, -, rfl⟩ := mem_map.mp hm
    rfl

lemma InsertOnly.commit [DecidableEq τ] (h : InsertOnly l) :
    InsertOnly (l.map (Slot.commit t)) := by
  intro sl hsl d hd
  obtain ⟨sl, hm, rfl⟩ := mem_map.mp hsl
  obtain ⟨hd', hu⟩ := Slot.commit_draft_some.mp hd
  rw [Slot.commit_base, Slot.view_undrafted]
  · exact h sl hm d hd'
  · intro r hr
    rw [hd', Option.some.injEq] at hr
    exact hu (congrArg Prod.fst hr)

lemma InsertOnly.rollback [DecidableEq τ] (h : InsertOnly l) :
    InsertOnly (l.map (Slot.rollback t)) := by
  intro sl hsl d hd
  obtain ⟨sl, hm, rfl⟩ := mem_map.mp hsl
  rw [Slot.rollback_base]
  exact h sl hm d (Slot.rollback_draft_some.mp hd).1

lemma InsertOnly.mem_visible [DecidableEq τ] (h : InsertOnly l)
    (hr : r ∈ committed l) : r ∈ visible t l := by
  obtain ⟨sl, hm, hb⟩ := mem_filterMap.mp hr
  refine mem_filterMap.mpr ⟨sl, hm, ?_⟩
  rw [Slot.view_undrafted, hb]
  intro r' hr'
  rw [h sl hm _ hr'] at hb
  cases hb

lemma InsertOnly.filter_visible [DecidableEq τ] (h : InsertOnly l)
    (hp : ∀ sl ∈ l, ∀ d, sl.draft = some d → p d.2 = false) :
    (visible t l).filter p = (committed l).filter p := by
  induction l with
  | nil => rfl
  | cons sl l ih =>
    have ih := ih (fun sl' hm => h sl' (mem_cons_of_mem _ hm))
      fun sl' hm => hp sl' (mem_cons_of_mem _ hm)
    simp only [visible, committed, filterMap_cons] at ih ⊢
    cases hd : sl.draft with
    | none =>
      have hv : sl.view t = sl.base := by simp only [Slot.view, hd]
      rw [hv]
      cases sl.base with
      | none => exact ih
      | some r => simp only [filter_cons, ih]
    | some d =>
      have hb := h sl mem_cons_self d hd
      have hn := hp sl mem_cons_self d hd
      rw [hb]
      cases hv : sl.view t with
      | none => exact ih
      | some r =>
        rcases Slot.draft_or_base hv with hd' | ⟨-, hb'⟩
        · rw [hd, Option.some.injEq] at hd'
          have hr : p r = false := by rw [← hn, hd']
          simp [hr, ih]
        · rw [hb] at hb'
          cases hb'

def Ended [DecidableEq τ] (t : τ) (l l' : List (Slot τ ρ)) : Prop :=
  l' = l ∨ l' = l.map (Slot.commit t) ∨ l' = l.map (Slot.rollback t)

variable {l l' : List (Slot τ ρ)}

section
variable [DecidableEq τ] (h : Ended t l l')
include h

lemma Ended.insertOnly (hl : InsertOnly l) : InsertOnly l' := by
  rcases h with rfl | rfl | rfl
  · exact hl
  · exact hl.commit
  · exact hl.rollback

lemma Ended.draft (hsl : sl ∈ l') (hd : sl.draft = some d) : ∃ sl0 ∈ l, sl0.draft = some d := by
  rcases h with rfl | rfl | rfl
  · exact ⟨sl, hsl, hd⟩
  · obtain ⟨sl0, hm, rfl⟩ := mem_map.mp hsl
    exact ⟨sl0, hm, (Slot.commit_draft_some.mp hd).1⟩
  · obtain ⟨sl0, hm, rfl⟩ := mem_map.mp hsl
    exact ⟨sl0, hm, (Slot.rollback_draft_some.mp hd).1⟩

lemma Ended.mem (hsl : sl ∈ l') (hr : sl.base = some r ∨ ∃ u, sl.draft = some (u, r)) :
    ∃ sl0 ∈ l, sl0.base = some r ∨ ∃ u, sl0.draft = some (u, r) := by
  rcases hr with hr | ⟨u, hd⟩
  · rcases h with rfl | rfl | rfl
    · exact ⟨sl, hsl, .inl hr⟩
    · obtain ⟨sl0, hm, rfl⟩ := mem_map.mp hsl
      rw [Slot.commit_base] at hr
      rcases Slot.draft_or_base hr with hd | ⟨-, hb⟩
      · exact ⟨sl0, hm, .inr ⟨t, hd⟩⟩
      · exact ⟨sl0, hm, .inl hb⟩
    · obtain ⟨sl0, hm, rfl⟩ := mem_map.mp hsl
      rw [Slot.rollback_base] at hr
      exact ⟨sl0, hm, .inl hr⟩
  · obtain ⟨sl0, hm, hd0⟩ := h.draft hsl hd
    exact ⟨sl0, hm, .inr ⟨u, hd0⟩⟩

lemma Ended.mem_committed (hl : InsertOnly l) (hr : r ∈ committed l) : r ∈ committed l' := by
  rcases h with rfl | rfl | rfl
  · exact hr
  · rw [committed_map_commit]
    exact hl.mem_visible hr
  · rw [committed_map_rollback]
    exact hr

lemma Ended.filter_committed
    (hl : InsertOnly l) (hp : ∀ sl ∈ l, ∀ d, sl.draft = some d → p d.2 = false) :
    (committed l').filter p = (committed l).filter p := by
  rcases h with rfl | rfl | rfl
  · rfl
  · rw [committed_map_commit, hl.filter_visible hp]
  · rw [committed_map_rollback]

end

end RowLocks
