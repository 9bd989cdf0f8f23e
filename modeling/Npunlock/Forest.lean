import Mathlib.Data.List.Dedup
import Mathlib.Logic.Relation
import Mathlib.Order.Nat
import Mathlib.Tactic.Common

/-!
# Forests kept as parent maps

A parent map is a list of pairs of a child and its parent in which no child occurs twice.
`Ranked` says that the nodes can be numbered so that every parent has a smaller number
than its children, which excludes cycles (`Ranked.acyclic`). An edge may be added below
any node that is not under the child (`Ranked.cons`). A numbering also bounds every
climb towards a root : `below` counts the children that a climb can still pass, and each
step makes it smaller (`below_lt`).
-/

namespace Npunlock

variable {α : Type}

/-- `parent` is the parent of `child`. -/
def IsParent (edges : List (α × α)) (child parent : α) : Prop :=
  (child, parent) ∈ edges

/-- No child occurs twice. -/
def ParentMap (edges : List (α × α)) : Prop :=
  (edges.map Prod.fst).Nodup

theorem ParentMap.unique {edges : List (α × α)} (h : ParentMap edges) {child p q : α}
    (hp : IsParent edges child p) (hq : IsParent edges child q) : p = q := by
  have hinj := List.inj_on_of_nodup_map h hp hq rfl
  exact (Prod.mk.inj hinj).2

/-- A numbering of the nodes in which parents come before their children. -/
def Numbers (rank : α → ℕ) (edges : List (α × α)) : Prop :=
  ∀ child parent, IsParent edges child parent → rank parent < rank child

/-- The nodes can be numbered. -/
def Ranked (edges : List (α × α)) : Prop :=
  ∃ rank : α → ℕ, Numbers rank edges

namespace Ranked

variable {edges : List (α × α)}

theorem nil : Ranked ([] : List (α × α)) :=
  ⟨fun _ => 0, fun _ _ h => absurd h List.not_mem_nil⟩

theorem rank_lt {rank : α → ℕ} (hrank : Numbers rank edges) {a b : α}
    (h : Relation.TransGen (IsParent edges) a b) : rank b < rank a := by
  induction h with
  | single hab => exact hrank _ _ hab
  | tail _ hbc ih => exact Nat.lt_trans (hrank _ _ hbc) ih

theorem acyclic (h : Ranked edges) (a : α) : ¬Relation.TransGen (IsParent edges) a a := by
  obtain ⟨rank, hrank⟩ := h
  exact fun hcycle => Nat.lt_irrefl _ (rank_lt hrank hcycle)

/-- A new edge keeps the numbering if its parent is not under its child. -/
theorem cons (h : Ranked edges) (hmap : ParentMap edges) {child parent : α}
    (hchild : child ∉ edges.map Prod.fst)
    (hunder : ¬Relation.ReflTransGen (IsParent edges) parent child) :
    Ranked ((child, parent) :: edges) := by
  classical
  obtain ⟨rank, hrank⟩ := h
  -- the nodes under the child move behind its new parent
  let moved : α → ℕ := fun a =>
    if Relation.ReflTransGen (IsParent edges) a child then rank a + rank parent + 1 else rank a
  have hin : ∀ a, Relation.ReflTransGen (IsParent edges) a child →
      moved a = rank a + rank parent + 1 := fun a ha => if_pos ha
  have hout : ∀ a, ¬Relation.ReflTransGen (IsParent edges) a child → moved a = rank a :=
    fun a ha => if_neg ha
  refine ⟨moved, fun a b hab => ?_⟩
  rcases List.mem_cons.1 hab with hnew | hold
  · obtain ⟨rfl, rfl⟩ := Prod.mk.inj hnew
    rw [hout b hunder, hin a Relation.ReflTransGen.refl]
    omega
  · have hlt : rank b < rank a := hrank a b hold
    by_cases hb : Relation.ReflTransGen (IsParent edges) b child
    · rw [hin b hb, hin a (Relation.ReflTransGen.head hold hb)]
      omega
    · have ha : ¬Relation.ReflTransGen (IsParent edges) a child := by
        intro ha
        rcases Relation.ReflTransGen.cases_head ha with rfl | ⟨c, hac, hc⟩
        · exact hchild (List.mem_map_of_mem hold)
        · exact hb (hmap.unique hold hac ▸ hc)
      rw [hout b hb, hout a ha]
      exact hlt

end Ranked

/-! ## Climbing -/

section Climb

variable {edges : List (α × α)}

/-- The children that a climb from `a` can pass. -/
def below (rank : α → ℕ) (edges : List (α × α)) (a : α) : ℕ :=
  edges.countP fun edge => rank edge.1 ≤ rank a

theorem below_le (rank : α → ℕ) (a : α) : below rank edges a ≤ edges.length :=
  List.countP_le_length

theorem below_lt {rank : α → ℕ} (hrank : Numbers rank edges) {a b : α}
    (hab : IsParent edges a b) : below rank edges b < below rank edges a := by
  have hlt : rank b < rank a := hrank a b hab
  obtain ⟨front, back, rfl⟩ := List.append_of_mem hab
  have hmono : ∀ l : List (α × α), below rank l b ≤ below rank l a := fun l =>
    List.countP_mono_left fun edge _ hedge => by
      have : rank edge.1 ≤ rank b := by simpa using hedge
      simpa using Nat.le_trans this (Nat.le_of_lt hlt)
  have hb : ¬rank a ≤ rank b := by omega
  have hsplit : ∀ c, below rank (front ++ (a, b) :: back) c =
      below rank front c + below rank back c + if rank a ≤ rank c then 1 else 0 := by
    intro c
    simp only [below, List.countP_append, List.countP_cons, decide_eq_true_eq]
    omega
  rw [hsplit, hsplit, if_neg hb, if_pos (Nat.le_refl _)]
  have := hmono front
  have := hmono back
  omega

end Climb

end Npunlock
