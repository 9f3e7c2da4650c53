import Mathlib.Data.List.Chain
import Mathlib.Data.List.Nodup
import Mathlib.Logic.Relation

namespace DepthFirst
open List Function

inductive Color where
  | white | gray | black
  deriving DecidableEq

def each (f : (α → Color) → α → (α → Color) × Option β) :
    (α → Color) → List α → (α → Color) × Option β
  | color, [] => (color, none)
  | color, x :: xs =>
    match f color x with
    | (color, some found) => (color, some found)
    | (color, none) => each f color xs

def Ends {α β : Type _} (P : β → Prop) (Q : (α → Color) → Prop) : (α → Color) × Option β → Prop
  | (_, some found) => P found
  | (color, none) => Q color

lemma Ends.imp {Q Q' : (α → Color) → Prop} (h : Ends P Q result)
    (hQ : ∀ color, Q color → Q' color) : Ends P Q' result := by
  obtain ⟨color, found⟩ := result
  cases found with
  | none => exact hQ color h
  | some => exact h

lemma each_rule {I : (α → Color) → Prop} {D : (α → Color) → α → Prop} {P : β → Prop}
    {f : (α → Color) → α → (α → Color) × Option β} {l : List α}
    (hstep : ∀ color x, x ∈ l → I color →
      Ends P (fun color' => I color' ∧ D color' x ∧ ∀ y, D color y → D color' y) (f color x))
    (h : I color) :
    Ends P (fun color' => I color' ∧ (∀ x ∈ l, D color' x) ∧ ∀ y, D color y → D color' y)
      (each f color l) := by
  induction l generalizing color with
  | nil => exact ⟨h, forall_mem_nil _, fun y hy => hy⟩
  | cons x l ih =>
    have hx := hstep color x mem_cons_self h
    have hstep' := fun c y (hy : y ∈ l) => hstep c y (mem_cons_of_mem _ hy)
    rw [each]
    cases hf : f color x with
    | mk color1 result =>
      rw [hf] at hx
      cases result with
      | some found => exact hx
      | none =>
        obtain ⟨hI, hdone, hkeep⟩ := hx
        refine (ih hstep' hI).imp fun color' hrest => ?_
        obtain ⟨hI', hall, hkeep'⟩ := hrest
        exact ⟨hI', forall_mem_cons.mpr ⟨hkeep' x hdone, hall⟩,
          fun y hy => hkeep' y (hkeep y hy)⟩

section
variable [DecidableEq α] (nodes : List α) (next : α → List α)

/-- A successor of the last node of `path`: a gray one closes it, a white one is entered. -/
def look (enter : (α → Color) → α → (α → Color) × Option (List α)) (path : List α)
    (color : α → Color) (x : α) : (α → Color) × Option (List α) :=
  if color x = .gray then (color, some (path ++ [x]))
  else if color x = .white ∧ x ∈ nodes then enter color x
  else (color, none)

/-- A visit of a white node at the end of `path`, with the walk that ran into itself if any. -/
def visit : Nat → (α → Color) → α → List α → (α → Color) × Option (List α)
  | 0, color, _, _ => (color, none)
  | fuel + 1, color, key, path =>
    let path := path ++ [key]
    match each (look nodes (fun color x => visit fuel color x path) path)
        (Function.update color key .gray) (next key) with
    | (color, some found) => (color, some found)
    | (color, none) => (Function.update color key .black, none)

def search : Option (List α) :=
  (each (fun color key =>
    if color key = .white then visit nodes next nodes.length color key [] else (color, none))
    (fun _ => .white) nodes).2

omit [DecidableEq α] in
def Edge (x y : α) : Prop := x ∈ nodes ∧ y ∈ nodes ∧ y ∈ next x

omit [DecidableEq α] in
def Lasso (l : List α) : Prop :=
  l.IsChain (Edge nodes next) ∧ ∃ stem last, l = stem ++ [last] ∧ last ∈ stem

omit [DecidableEq α] in
/-- Lists of nodes in which every node comes after its successors. -/
inductive Ordered : List α → Prop where
  | nil : Ordered []
  | snoc : Ordered l → x ∈ nodes → x ∉ l → (∀ y ∈ next x, y ∈ nodes → y ∈ l) → Ordered (l ++ [x])

structure Sound (color : α → Color) (path : List α) : Prop where
  known : ∀ x ∈ path, x ∈ nodes
  gray : ∀ x, color x = .gray ↔ x ∈ path
  order : ∃ l, Ordered nodes next l ∧ ∀ x, color x = .black ↔ x ∈ l

def whites (color : α → Color) : Nat := nodes.countP fun x => color x = .white

end

section
variable {nodes : List α} {next : α → List α}

lemma Ordered.nodup (h : Ordered nodes next l) : l.Nodup := by
  induction h with
  | nil => exact nodup_nil
  | snoc _ _ hx _ ih =>
    rw [nodup_append]
    refine ⟨ih, nodup_singleton _, ?_⟩
    rintro a ha b hb rfl
    exact hx (mem_singleton.mp hb ▸ ha)

lemma Ordered.subset (h : Ordered nodes next l) : ∀ x ∈ l, x ∈ nodes := by
  induction h with
  | nil =>
    intro x hx
    cases hx
  | snoc _ hn _ _ ih =>
    intro x hx
    rcases mem_append.mp hx with hx | hx
    · exact ih x hx
    · exact mem_singleton.mp hx ▸ hn

lemma Ordered.idxOf_lt [DecidableEq α] (h : Ordered nodes next l) (hx : x ∈ l)
    (he : Edge nodes next x y) : y ∈ l ∧ l.idxOf y < l.idxOf x := by
  induction h with
  | nil => cases hx
  | @snoc l z _ _ hz hnext ih =>
    by_cases hxl : x ∈ l
    · obtain ⟨hy, hlt⟩ := ih hxl
      refine ⟨mem_append_left _ hy, ?_⟩
      rw [idxOf_append_of_mem hy, idxOf_append_of_mem hxl]
      exact hlt
    · obtain rfl : x = z := mem_singleton.mp ((mem_append.mp hx).resolve_left hxl)
      have hy : y ∈ l := hnext y he.2.2 he.2.1
      refine ⟨mem_append_left _ hy, ?_⟩
      rw [idxOf_append_of_mem hy, idxOf_append_of_notMem hz]
      exact Nat.lt_add_right _ (idxOf_lt_length_of_mem hy)

lemma Ordered.acyclic (h : Ordered nodes next l) (hall : ∀ x ∈ nodes, x ∈ l) :
    ¬ Relation.TransGen (Edge nodes next) x x := by
  classical
  have hdown : ∀ y, Relation.TransGen (Edge nodes next) x y → l.idxOf y < l.idxOf x := by
    intro y hy
    induction hy with
    | single he => exact (h.idxOf_lt (hall _ he.1) he).2
    | tail _ he ih => exact (h.idxOf_lt (hall _ he.1) he).2.trans ih
  intro hx
  exact Nat.lt_irrefl _ (hdown x hx)

lemma transGen_of_isChain {R : α → α → Prop} {l : List α}
    (h : (x :: (l ++ [y])).IsChain R) : Relation.TransGen R x y := by
  induction l generalizing x with
  | nil => exact .single (isChain_cons_cons.mp h).1
  | cons z l ih =>
    obtain ⟨hxz, hrest⟩ := isChain_cons_cons.mp h
    exact .head hxz (ih hrest)

lemma Lasso.cycle (h : Lasso nodes next l) : ∃ x, Relation.TransGen (Edge nodes next) x x := by
  obtain ⟨hchain, stem, last, rfl, hlast⟩ := h
  obtain ⟨a, b, rfl⟩ := append_of_mem hlast
  rw [append_assoc, cons_append] at hchain
  exact ⟨last, transGen_of_isChain (isChain_append.mp hchain).2.1⟩

end

section
variable [DecidableEq α] {nodes : List α} {next : α → List α} {color color' : α → Color}

lemma whites_gray (hkey : color key = .white) (hn : key ∈ nodes) :
    whites nodes (Function.update color key .gray) < whites nodes color := by
  have hle : ∀ x, update color key .gray x = .white → color x = .white := by
    intro x hx
    by_cases hxk : x = key
    · rw [hxk, update_self] at hx
      cases hx
    · rwa [update_of_ne hxk] at hx
  obtain ⟨a, b, rfl⟩ := append_of_mem hn
  have ha : a.countP (fun x => update color key .gray x = .white) ≤
      a.countP fun x => color x = .white :=
    countP_mono_left fun x _ hx => decide_eq_true (hle x (of_decide_eq_true hx))
  have hb : b.countP (fun x => update color key .gray x = .white) ≤
      b.countP fun x => color x = .white :=
    countP_mono_left fun x _ hx => decide_eq_true (hle x (of_decide_eq_true hx))
  have hnew : decide (update color key .gray key = .white) = false := by simp
  have hold := decide_eq_true hkey
  rw [whites, whites, countP_append, countP_append, countP_cons, countP_cons, hnew, hold]
  simp only [Bool.false_eq_true, if_false, if_true]
  omega

lemma whites_black : whites nodes (Function.update color key .black) ≤ whites nodes color := by
  apply countP_mono_left
  intro x _ hx
  by_cases hxk : x = key
  · rw [hxk, update_self] at hx
    cases hx
  · rwa [update_of_ne hxk] at hx

omit [DecidableEq α] in
lemma whites_pos (hkey : color key = .white) (hn : key ∈ nodes) : 0 < whites nodes color :=
  countP_pos_iff.mpr ⟨key, hn, decide_eq_true hkey⟩

omit [DecidableEq α] in
lemma Sound.start : Sound nodes next (fun _ => Color.white) [] where
  known x hx := by cases hx
  gray x := by simp
  order := ⟨[], .nil, fun x => by simp⟩

lemma Sound.enter (h : Sound nodes next color path) (hkey : color key = .white)
    (hn : key ∈ nodes) : Sound nodes next (Function.update color key .gray) (path ++ [key]) where
  known x hx := by
    rcases mem_append.mp hx with hx | hx
    · exact h.known x hx
    · exact mem_singleton.mp hx ▸ hn
  gray x := by
    rw [mem_append, mem_singleton]
    by_cases hx : x = key
    · simp [hx]
    · rw [update_of_ne hx, h.gray x, or_iff_left hx]
  order := by
    obtain ⟨l, hl, hblack⟩ := h.order
    refine ⟨l, hl, ?_⟩
    intro x
    by_cases hx : x = key
    · subst hx
      rw [update_self, ← hblack x, hkey]
      simp
    · rw [update_of_ne hx, hblack x]

lemma Sound.leave (h : Sound nodes next color (path ++ [key])) (hpath : key ∉ path)
    (hn : key ∈ nodes) (hnext : ∀ x ∈ next key, x ∈ nodes → color x = .black) :
    Sound nodes next (Function.update color key .black) path where
  known x hx := h.known x (mem_append_left _ hx)
  gray x := by
    by_cases hx : x = key
    · simp [hx, hpath]
    · rw [update_of_ne hx, h.gray x, mem_append, mem_singleton, or_iff_left hx]
  order := by
    obtain ⟨l, hl, hblack⟩ := h.order
    have hgray := (h.gray key).mpr (mem_append_right _ (mem_singleton_self _))
    have hkey : key ∉ l := by
      intro hmem
      rw [(hblack key).mpr hmem] at hgray
      cases hgray
    refine ⟨l ++ [key], .snoc hl hn hkey fun y hy hyn => (hblack y).mp (hnext y hy hyn), ?_⟩
    intro x
    rw [mem_append, mem_singleton]
    by_cases hx : x = key
    · simp [hx]
    · rw [update_of_ne hx, hblack x, or_iff_left hx]

structure Visited (nodes : List α) (next : α → List α) (color color' : α → Color) (key : α)
    (path : List α) : Prop where
  sound : Sound nodes next color' path
  black : color' key = .black
  kept : ∀ x, color x = .black → color' x = .black
  fewer : whites nodes color' ≤ whites nodes color

def Enters (nodes : List α) (next : α → List α)
    (enter : (α → Color) → α → (α → Color) × Option (List α)) (path : List α) (bound : Nat) :
    Prop :=
  ∀ color x, Sound nodes next color path → color x = .white → x ∈ nodes →
    (path ++ [x]).IsChain (Edge nodes next) → whites nodes color < bound →
    Ends (Lasso nodes next) (fun color' => Visited nodes next color color' x path) (enter color x)

section
variable (h : Enters nodes next enter path bound)
  (hs : Sound nodes next color path) (hbound : whites nodes color < bound)
include h hs hbound

def Looked (nodes : List α) (next : α → List α) (path : List α) (color : α → Color) (xs : List α)
    (color' : α → Color) : Prop :=
  Sound nodes next color' path ∧ (∀ x ∈ xs, x ∈ nodes → color' x = .black) ∧
    (∀ y, color y = .black → color' y = .black) ∧ whites nodes color' ≤ whites nodes color

lemma look_ends (hext : x ∈ nodes → (path ++ [x]).IsChain (Edge nodes next)) :
    Ends (Lasso nodes next) (Looked nodes next path color [x]) (look nodes enter path color x) := by
  rw [look]
  split
  next hgray =>
    have hmem := (hs.gray x).mp hgray
    exact ⟨hext (hs.known x hmem), path, x, rfl, hmem⟩
  next hgray =>
    split
    next hwhite =>
      refine (h color x hs hwhite.1 hwhite.2 (hext hwhite.2) hbound).imp fun color' hv => ?_
      exact ⟨hv.sound, forall_mem_singleton.mpr fun _ => hv.black, hv.kept, hv.fewer⟩
    next hwhite =>
      refine ⟨hs, forall_mem_singleton.mpr fun hx => ?_, fun y hy => hy, le_rfl⟩
      cases hc : color x with
      | white => exact absurd ⟨hc, hx⟩ hwhite
      | gray => exact absurd hc hgray
      | black => rfl

lemma each_look (hext : ∀ x ∈ xs, x ∈ nodes → (path ++ [x]).IsChain (Edge nodes next)) :
    Ends (Lasso nodes next) (Looked nodes next path color xs)
      (each (look nodes enter path) color xs) := by
  -- what was black at the start still is between two of them
  let I : (α → Color) → Prop := fun c => Sound nodes next c path ∧
    whites nodes c ≤ whites nodes color ∧ ∀ y, color y = .black → c y = .black
  have hI : I color := ⟨hs, le_rfl, fun y hy => hy⟩
  have hall := each_rule (I := I) (P := Lasso nodes next) (l := xs) (f := look nodes enter path)
    (D := fun c x => x ∈ nodes → c x = .black) (fun c x hx hc => by
      refine (look_ends h hc.1 (hc.2.1.trans_lt hbound) (hext x hx)).imp fun c' hlook => ?_
      obtain ⟨hs', hblack, hkept, hfewer⟩ := hlook
      exact ⟨⟨hs', hfewer.trans hc.2.1, fun y hy => hkept y (hc.2.2 y hy)⟩,
        forall_mem_singleton.mp hblack, fun y hy hyn => hkept y (hy hyn)⟩) hI
  refine hall.imp fun color' hdone => ?_
  obtain ⟨⟨hs', hfewer, hkept⟩, hdone, -⟩ := hdone
  exact ⟨hs', hdone, hkept, hfewer⟩

end

/-- With enough fuel a visit finds a closed walk, or blackens its node and keeps the invariant. -/
lemma visit_spec : Enters nodes next (fun color x => visit nodes next fuel color x path) path
    (fuel + 1) := by
  induction fuel generalizing path with
  | zero =>
    intro color key hs hkey hn _ hfuel
    exact absurd (whites_pos hkey hn) (by omega)
  | succ fuel ih =>
    intro color key hs hkey hn hpath hfuel
    have hnot : key ∉ path := by
      intro hmem
      rw [(hs.gray key).mpr hmem] at hkey
      cases hkey
    have hext : ∀ x ∈ next key, x ∈ nodes →
        (path ++ [key] ++ [x]).IsChain (Edge nodes next) := by
      intro x hx hxn
      rw [append_assoc, singleton_append, isChain_append_cons_cons]
      exact ⟨hpath, ⟨hn, hxn, hx⟩, .singleton x⟩
    have hent := whites_gray hkey hn
    have hall := each_look ih (hs.enter hkey hn) (by omega) hext
    dsimp only
    rw [visit]
    generalize each _ _ (next key) = result at hall ⊢
    obtain ⟨c, found⟩ := result
    cases found with
    | some found => exact hall
    | none =>
      obtain ⟨hsound, hdone, hkept, hless⟩ := hall
      refine ⟨hsound.leave hnot hn hdone, update_self .., ?_, ?_⟩
      · intro x hx
        have hxk : x ≠ key := by
          rintro rfl
          rw [hkey] at hx
          cases hx
        rw [update_of_ne hxk]
        apply hkept
        rw [update_of_ne hxk]
        exact hx
      · exact whites_black.trans (hless.trans hent.le)

lemma search_spec (nodes : List α) (next : α → List α) :
    (∀ found, search nodes next = some found → Lasso nodes next found) ∧ (search nodes next = none →
      ∃ l, Ordered nodes next l ∧ ∀ x, x ∈ l ↔ x ∈ nodes) := by
  have hfuel : ∀ color : α → Color, whites nodes color < nodes.length + 1 :=
    fun color => Nat.lt_succ_of_le countP_le_length
  have hall := each_rule (I := fun c => Sound nodes next c [])
    (P := Lasso nodes next) (D := fun c x => c x = .black) (l := nodes)
    (f := fun color key =>
      if color key = .white then visit nodes next nodes.length color key [] else (color, none))
    (by
      intro c x hx hc
      split
      next hwhite =>
        refine (visit_spec c x hc hwhite hx (.singleton x) (hfuel c)).imp fun c' hv => ?_
        exact ⟨hv.sound, hv.black, hv.kept⟩
      next hwhite =>
        refine ⟨hc, ?_, fun y hy => hy⟩
        cases hcx : c x with
        | white => exact absurd hcx hwhite
        | gray => cases (hc.gray x).mp hcx
        | black => rfl) Sound.start
  rw [search]
  generalize each _ _ nodes = result at hall ⊢
  obtain ⟨c, result⟩ := result
  constructor
  · rintro found rfl
    exact hall
  · rintro rfl
    obtain ⟨hsound, hdone, -⟩ := hall
    obtain ⟨l, hl, hblack⟩ := hsound.order
    exact ⟨l, hl, fun x => ⟨hl.subset x, fun hx => (hblack x).mp (hdone x hx)⟩⟩

end

end DepthFirst
