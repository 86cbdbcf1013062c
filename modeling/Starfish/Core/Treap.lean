import Mathlib.Order.Compare
import Mathlib.Order.Lattice
import Mathlib.Order.Defs.LinearOrder
import Mathlib.Logic.Function.Basic
import Mathlib.Data.List.Induction
import Mathlib.Data.Nat.Basic

/-!
# The treap

A binary search tree over the keys that is at the same time a heap over the priorities. The
in-order traversal of a tree carries the map that it stores: rotations do not change it, and
insertion and removal do to it what they do to a list in ascending order.
-/

namespace Starfish.Core

inductive TreapNode (K V P : Type)
  | nil
  | node (key : K) (value : V) (priority : P) (left right : TreapNode K V P)
deriving DecidableEq

namespace TreapNode

variable {K V P : Type}

def size : TreapNode K V P → Nat
  | nil => 0
  | node _ _ _ left right => left.size + right.size + 1

def rotateRight : TreapNode K V P → TreapNode K V P
  | node key value priority (node key' value' priority' left middle) right =>
    node key' value' priority' left (node key value priority middle right)
  | t => t

def rotateLeft : TreapNode K V P → TreapNode K V P
  | node key value priority left (node key' value' priority' middle right) =>
    node key' value' priority' (node key value priority left middle) right
  | t => t

def inOrder : TreapNode K V P → List (K × V × P)
  | nil => []
  | node key value priority left right => inOrder left ++ (key, value, priority) :: inOrder right

def getMinPriorityNode : TreapNode K V P → Option (K × V × P)
  | nil => none
  | node key value priority _ _ => some (key, value, priority)

@[simp] theorem inOrder_rotateRight (t : TreapNode K V P) :
    inOrder (rotateRight t) = inOrder t := by
  unfold rotateRight
  split <;> simp [inOrder]

@[simp] theorem inOrder_rotateLeft (t : TreapNode K V P) :
    inOrder (rotateLeft t) = inOrder t := by
  unfold rotateLeft
  split <;> simp [inOrder]

variable [LinearOrder K]

def containsRec (key : K) : TreapNode K V P → Bool
  | nil => false
  | node key' _ _ left right =>
    match compare key key' with
    | .eq => true
    | .lt => containsRec key left
    | .gt => containsRec key right

def getRec (key : K) : TreapNode K V P → Option V
  | nil => none
  | node key' value _ left right =>
    match compare key key' with
    | .eq => some value
    | .lt => getRec key left
    | .gt => getRec key right

variable [LinearOrder P]

def rootBelow (priority : P) : TreapNode K V P → Bool
  | nil => false
  | node _ _ priority' _ _ => priority' < priority

def insertRec (key : K) (value : V) (priority : P) : TreapNode K V P → TreapNode K V P
  | nil => node key value priority nil nil
  | node key' value' priority' left right =>
    match compare key key' with
    | .eq => node key' value priority left right
    | .lt =>
      let left := insertRec key value priority left
      if left.rootBelow priority' then rotateRight (node key' value' priority' left right)
      else node key' value' priority' left right
    | .gt =>
      let right := insertRec key value priority right
      if right.rootBelow priority' then rotateLeft (node key' value' priority' left right)
      else node key' value' priority' left right

/-- The removed value and what is left. A node with two children is rotated down, and removal
goes on below its new parent. -/
def removeRec (key : K) : TreapNode K V P → Option V × TreapNode K V P
  | nil => (none, nil)
  | node key' value priority left right =>
    match compare key key' with
    | .lt =>
      let removed := removeRec key left
      (removed.1, node key' value priority removed.2 right)
    | .gt =>
      let removed := removeRec key right
      (removed.1, node key' value priority left removed.2)
    | .eq =>
      match left, right with
      | nil, right => (some value, right)
      | left, nil => (some value, left)
      | node lkey lvalue lpriority ll lr, node rkey rvalue rpriority rl rr =>
        if lpriority < rpriority then
          let removed := removeRec key
            (node key' value priority lr (node rkey rvalue rpriority rl rr))
          (removed.1, node lkey lvalue lpriority ll removed.2)
        else
          let removed := removeRec key
            (node key' value priority (node lkey lvalue lpriority ll lr) rl)
          (removed.1, node rkey rvalue rpriority removed.2 rr)
termination_by t => t.size
decreasing_by all_goals simp only [size]; omega

/-! ## Keys -/

/-- The keys are strictly ascending from left to right. -/
def Sorted (t : TreapNode K V P) : Prop := (inOrder t).Pairwise fun a b => a.1 < b.1

def put (key : K) (entry : V × P) (l : List (K × V × P)) : List (K × V × P) :=
  l.filter (·.1 < key) ++ (key, entry) :: l.filter (key < ·.1)

/-- What a removal does to the entries. -/
def without (key : K) (l : List (K × V × P)) : List (K × V × P) := l.filter (·.1 ≠ key)

omit [LinearOrder P] in
theorem put_append_left {key : K} {entry : V × P} {front back : List (K × V × P)}
    (h : ∀ e ∈ back, key < e.1) :
    put key entry (front ++ back) = put key entry front ++ back := by
  have hnone : back.filter (·.1 < key) = [] := by
    simpa using fun k v p he => Std.le_of_lt (h (k, v, p) he)
  have hall : back.filter (key < ·.1) = back := by
    simpa using fun k v p he => h (k, v, p) he
  simp [put, hnone, hall]

omit [LinearOrder P] in
theorem put_append_right {key : K} {entry : V × P} {front back : List (K × V × P)}
    (h : ∀ e ∈ front, e.1 < key) :
    put key entry (front ++ back) = front ++ put key entry back := by
  have hnone : front.filter (key < ·.1) = [] := by
    simpa using fun k v p he => Std.le_of_lt (h (k, v, p) he)
  have hall : front.filter (·.1 < key) = front := by
    simpa using fun k v p he => h (k, v, p) he
  simp [put, hnone, hall]

omit [LinearOrder P] in
theorem without_of_ne {key : K} {l : List (K × V × P)} (h : ∀ e ∈ l, e.1 ≠ key) :
    without key l = l := by
  simpa [without] using fun k v p he => h (k, v, p) he

omit [LinearOrder P] in
theorem sorted_node_iff {key : K} {value : V} {priority : P} {left right : TreapNode K V P} :
    Sorted (node key value priority left right) ↔ Sorted left ∧ Sorted right ∧
      (∀ e ∈ inOrder left, e.1 < key) ∧ ∀ e ∈ inOrder right, key < e.1 := by
  simp only [Sorted, inOrder, List.pairwise_append, List.pairwise_cons, List.forall_mem_cons]
  constructor
  · rintro ⟨hleft, ⟨hroot, hright⟩, hcross⟩
    exact ⟨hleft, hright, fun e he => (hcross e he).1, hroot⟩
  · rintro ⟨hleft, hright, hbelow, habove⟩
    exact ⟨hleft, ⟨habove, hright⟩, fun e he =>
      ⟨hbelow e he, fun e' he' => lt_trans (hbelow e he) (habove e' he')⟩⟩

section Search

variable {key : K} {value : V} {priority : P} {t : TreapNode K V P}

theorem inOrder_insertRec (h : Sorted t) :
    inOrder (insertRec key value priority t) = put key (value, priority) (inOrder t) := by
  induction t with
  | nil => rfl
  | node key' value' priority' left right ihl ihr =>
    obtain ⟨hleft, hright, hbelow, habove⟩ := sorted_node_iff.mp h
    rw [insertRec]
    cases hcmp : compare key key' with
    | lt =>
      have hlt : key < key' := compare_lt_iff_lt.mp hcmp
      have hback : ∀ e ∈ (key', value', priority') :: inOrder right, key < e.1 :=
        List.forall_mem_cons.mpr ⟨hlt, fun e he => lt_trans hlt (habove e he)⟩
      simp only
      split <;> simp only [inOrder_rotateRight, inOrder, ihl hleft, put_append_left hback]
    | gt =>
      have hlt : key' < key := compare_gt_iff_gt.mp hcmp
      have hfront : ∀ e ∈ inOrder left, e.1 < key := fun e he => lt_trans (hbelow e he) hlt
      have hput := @put_append_right K V P _ key (value, priority) [(key', value', priority')]
        (inOrder right) (by simpa using hlt)
      rw [List.singleton_append] at hput
      simp only
      split <;> simp only [inOrder_rotateLeft, inOrder, ihr hright, put_append_right hfront, hput,
        List.singleton_append]
    | eq =>
      obtain rfl : key = key' := compare_eq_iff_eq.mp hcmp
      have hput := @put_append_left K V P _ key (value, priority) [(key, value', priority')] _
        habove
      rw [List.singleton_append] at hput
      simp only [inOrder, put_append_right hbelow, hput]
      simp [put]

theorem inOrder_removeRec (h : Sorted t) :
    inOrder (removeRec key t).2 = without key (inOrder t) := by
  -- entries on the other side of the root do not have the key
  have hside : ∀ {l : List (K × V × P)}, (∀ e ∈ l, key < e.1) ∨ (∀ e ∈ l, e.1 < key) →
      without key l = l := fun hl => without_of_ne fun e he =>
    hl.elim (fun hl => (hl e he).ne') (fun hl => (hl e he).ne)
  have hsplit : ∀ l l' : List (K × V × P),
      without key (l ++ l') = without key l ++ without key l' := fun _ _ => List.filter_append ..
  have hroot : ∀ (e : K × V × P) (l : List (K × V × P)), without key (e :: l) =
      if e.1 = key then without key l else e :: without key l := by
    intro e l
    simp [without, List.filter_cons]
  fun_induction removeRec key t with
  | case1 => rfl
  | case2 key' value priority left right hcmp removed ih =>
    obtain ⟨hleft, -, -, habove⟩ := sorted_node_iff.mp h
    have hlt : key < key' := compare_lt_iff_lt.mp hcmp
    rw [inOrder, inOrder, hsplit, hroot, if_neg hlt.ne', ih hleft,
      hside (.inl fun e he => lt_trans hlt (habove e he))]
  | case3 key' value priority left right hcmp removed ih =>
    obtain ⟨-, hright, hbelow, -⟩ := sorted_node_iff.mp h
    have hlt : key' < key := compare_gt_iff_gt.mp hcmp
    rw [inOrder, inOrder, hsplit, hroot, if_neg hlt.ne, ih hright,
      hside (.inr fun e he => lt_trans (hbelow e he) hlt)]
  | case4 key' value priority hcmp right =>
    obtain rfl : key = key' := compare_eq_iff_eq.mp hcmp
    obtain ⟨-, -, -, habove⟩ := sorted_node_iff.mp h
    rw [inOrder, hsplit, hroot, if_pos rfl, hside (.inl habove)]
    rfl
  | case5 key' value priority hcmp left =>
    obtain rfl : key = key' := compare_eq_iff_eq.mp hcmp
    obtain ⟨-, -, hbelow, -⟩ := sorted_node_iff.mp h
    rw [inOrder, hsplit, hroot, if_pos rfl, hside (.inr hbelow)]
    exact (List.append_nil _).symm
  | case6 key' value priority hcmp lkey lvalue lpriority ll lr rkey rvalue rpriority rl rr hlt
      removed ih =>
    obtain rfl : key = key' := compare_eq_iff_eq.mp hcmp
    have hrotated := (inOrder_rotateRight (node key value priority
      (node lkey lvalue lpriority ll lr) (node rkey rvalue rpriority rl rr)))
    rw [Sorted, ← hrotated] at h
    obtain ⟨-, hinner, hbelow, habove⟩ := sorted_node_iff.mp h
    have hlkey := habove (key, value, priority) (by simp [inOrder])
    rw [← hrotated, rotateRight, inOrder, inOrder, hsplit, hroot, if_neg (ne_of_lt hlkey),
      ih hinner, hside (.inr fun e he => lt_trans (hbelow e he) hlkey)]
  | case7 key' value priority hcmp lkey lvalue lpriority ll lr rkey rvalue rpriority rl rr hle
      removed ih =>
    obtain rfl : key = key' := compare_eq_iff_eq.mp hcmp
    have hrotated := (inOrder_rotateLeft (node key value priority
      (node lkey lvalue lpriority ll lr) (node rkey rvalue rpriority rl rr)))
    rw [Sorted, ← hrotated] at h
    obtain ⟨hinner, -, hbelow, habove⟩ := sorted_node_iff.mp h
    have hrkey := hbelow (key, value, priority) (by simp [inOrder])
    rw [← hrotated, rotateLeft, inOrder, inOrder, hsplit, hroot, if_neg (ne_of_gt hrkey),
      ih hinner, hside (.inl fun e he => lt_trans hrkey (habove e he))]

theorem removeRec_fst : (removeRec key t).1 = getRec key t := by
  fun_induction removeRec key t with
  | case1 => rfl
  | case2 key' value priority left right hcmp removed ih => rw [getRec, hcmp, ← ih]
  | case3 key' value priority left right hcmp removed ih => rw [getRec, hcmp, ← ih]
  | case4 key' value priority hcmp => rw [getRec, hcmp]
  | case5 key' value priority hcmp => rw [getRec, hcmp]
  | case6 key' value priority hcmp _ _ _ _ _ _ _ _ _ _ _ removed ih =>
    rw [getRec, hcmp] at ih ⊢
    exact ih
  | case7 key' value priority hcmp _ _ _ _ _ _ _ _ _ _ _ removed ih =>
    rw [getRec, hcmp] at ih ⊢
    exact ih

omit [LinearOrder P] in
theorem getRec_eq_some_iff (h : Sorted t) :
    getRec key t = some value ↔ ∃ priority, (key, value, priority) ∈ inOrder t := by
  induction t with
  | nil => simp [getRec, inOrder]
  | node key' value' priority' left right ihl ihr =>
    obtain ⟨hleft, hright, hbelow, habove⟩ := sorted_node_iff.mp h
    have hnotLeft : ∀ p, key' ≤ key → (key, value, p) ∉ inOrder left := fun p hle he =>
      absurd (hbelow _ he) (not_lt.mpr hle)
    have hnotRight : ∀ p, key ≤ key' → (key, value, p) ∉ inOrder right := fun p hle he =>
      absurd (habove _ he) (not_lt.mpr hle)
    rw [getRec]
    cases hcmp : compare key key' with
    | lt =>
      have hlt : key < key' := compare_lt_iff_lt.mp hcmp
      simp [ihl hleft, inOrder, hlt.ne, hnotRight _ hlt.le]
    | gt =>
      have hlt : key' < key := compare_gt_iff_gt.mp hcmp
      simp [ihr hright, inOrder, hlt.ne', hnotLeft _ hlt.le]
    | eq =>
      obtain rfl : key = key' := compare_eq_iff_eq.mp hcmp
      simp [inOrder, hnotLeft _ le_rfl, hnotRight _ le_rfl, eq_comm]

omit [LinearOrder P] in
theorem containsRec_eq (key : K) (t : TreapNode K V P) :
    containsRec key t = (getRec key t).isSome := by
  induction t with
  | nil => rfl
  | node key' value priority left right ihl ihr =>
    rw [containsRec, getRec]
    cases compare key key' with
    | lt => exact ihl
    | eq => rfl
    | gt => exact ihr

end Search

/-! ## Priorities -/

def AtLeast (q : P) : TreapNode K V P → Prop
  | nil => True
  | node _ _ priority _ _ => q ≤ priority

def ChildrenAtLeast (q : P) : TreapNode K V P → Prop
  | nil => True
  | node _ _ _ left right => AtLeast q left ∧ AtLeast q right

/-- No child has a smaller priority than its parent. -/
def Heap : TreapNode K V P → Prop
  | nil => True
  | node _ _ priority left right =>
    AtLeast priority left ∧ AtLeast priority right ∧ Heap left ∧ Heap right

section Heap

variable {key : K} {value : V} {priority q q' : P} {t : TreapNode K V P}

omit [LinearOrder K] in
theorem AtLeast.mono (hle : q ≤ q') (h : AtLeast q' t) : AtLeast q t := by
  cases t with
  | nil => trivial
  | node => exact le_trans hle h

omit [LinearOrder K] in
theorem Heap.children (h : Heap t) (hq : AtLeast q t) : ChildrenAtLeast q t := by
  cases t with
  | nil => trivial
  | node => exact ⟨h.1.mono hq, h.2.1.mono hq⟩

omit [LinearOrder K] in
theorem rootBelow_eq_false_iff : t.rootBelow q = false ↔ AtLeast q t := by
  cases t <;> simp [rootBelow, AtLeast]

variable {left right : TreapNode K V P}

omit [LinearOrder K] in
theorem Heap.raiseLeft (hleft : Heap left) (hright : Heap right)
    (hchildren : ChildrenAtLeast priority left) (hr : AtLeast priority right) (hq : q ≤ priority) :
    let t := if left.rootBelow priority then rotateRight (node key value priority left right)
      else node key value priority left right
    Heap t ∧ ChildrenAtLeast q t := by
  cases hbelow : left.rootBelow priority with
  | false =>
    have hl := rootBelow_eq_false_iff.mp hbelow
    exact ⟨⟨hl, hr, hleft, hright⟩, hl.mono hq, hr.mono hq⟩
  | true =>
    cases left with
    | nil => cases hbelow
    | node =>
      obtain ⟨hll, -, hheap, hheap'⟩ := hleft
      have hlt := le_of_lt (of_decide_eq_true hbelow)
      exact ⟨⟨hll, hlt, hheap, hchildren.2, hr, hheap', hright⟩, hchildren.1.mono hq, hq⟩

omit [LinearOrder K] in
theorem Heap.raiseRight (hleft : Heap left) (hright : Heap right)
    (hchildren : ChildrenAtLeast priority right) (hl : AtLeast priority left) (hq : q ≤ priority) :
    let t := if right.rootBelow priority then rotateLeft (node key value priority left right)
      else node key value priority left right
    Heap t ∧ ChildrenAtLeast q t := by
  cases hbelow : right.rootBelow priority with
  | false =>
    have hr := rootBelow_eq_false_iff.mp hbelow
    exact ⟨⟨hl, hr, hleft, hright⟩, hl.mono hq, hr.mono hq⟩
  | true =>
    cases right with
    | nil => cases hbelow
    | node =>
      obtain ⟨-, hrr, hheap, hheap'⟩ := hright
      have hlt := le_of_lt (of_decide_eq_true hbelow)
      exact ⟨⟨hlt, hrr, ⟨hl, hchildren.1, hleft, hheap⟩, hheap'⟩, hq, hchildren.2.mono hq⟩

/-- A new key goes to a leaf and is rotated up as long as its priority is smaller. Only the new
entry can be smaller than what the tree had at its root. -/
theorem Heap.insertRec (h : Heap t) (hfresh : ∀ e ∈ inOrder t, e.1 ≠ key) :
    Heap (insertRec key value priority t) ∧
      ∀ q, AtLeast q t → ChildrenAtLeast q (TreapNode.insertRec key value priority t) := by
  induction t with
  | nil => exact ⟨⟨trivial, trivial, trivial, trivial⟩, fun _ _ => ⟨trivial, trivial⟩⟩
  | node key' value' priority' left right ihl ihr =>
    obtain ⟨hl, hr, hleft, hright⟩ := h
    simp only [inOrder, List.forall_mem_append, List.forall_mem_cons] at hfresh
    rw [TreapNode.insertRec]
    cases hcmp : compare key key' with
    | eq => exact absurd (compare_eq_iff_eq.mp hcmp).symm hfresh.2.1
    | lt =>
      obtain ⟨hheap, hchildren⟩ := ihl hleft hfresh.1
      have hbelow := hchildren priority' hl
      exact ⟨(hheap.raiseLeft hright hbelow hr le_rfl).1,
        fun q hq => (hheap.raiseLeft hright hbelow hr hq).2⟩
    | gt =>
      obtain ⟨hheap, hchildren⟩ := ihr hright hfresh.2.2
      have hbelow := hchildren priority' hr
      exact ⟨(hleft.raiseRight hheap hbelow hl le_rfl).1,
        fun q hq => (hleft.raiseRight hheap hbelow hl hq).2⟩

/-- What is left has no smaller priority at its root than the tree had, or than its children had
if the root is removed. -/
theorem Heap.removeRec (h : Heap t) :
    Heap (removeRec key t).2 ∧ (∀ q, AtLeast q t → AtLeast q (TreapNode.removeRec key t).2) ∧
      ∀ value priority left right, t = node key value priority left right →
        ∀ q, ChildrenAtLeast q t → AtLeast q (TreapNode.removeRec key t).2 := by
  fun_induction TreapNode.removeRec key t with
  | case1 => exact ⟨trivial, fun _ _ => trivial, nofun⟩
  | case2 key' value priority left right hcmp removed ih =>
    obtain ⟨hl, hr, hleft, hright⟩ := h
    obtain ⟨hheap, hroot, -⟩ := ih hleft
    refine ⟨⟨hroot _ hl, hr, hheap, hright⟩, fun _ hq => hq, fun _ _ _ _ heq => ?_⟩
    cases heq
    simp at hcmp
  | case3 key' value priority left right hcmp removed ih =>
    obtain ⟨hl, hr, hleft, hright⟩ := h
    obtain ⟨hheap, hroot, -⟩ := ih hright
    refine ⟨⟨hl, hroot _ hr, hleft, hheap⟩, fun _ hq => hq, fun _ _ _ _ heq => ?_⟩
    cases heq
    simp at hcmp
  | case4 key' value priority hcmp right =>
    exact ⟨h.2.2.2, fun q hq => (h.children hq).2, fun _ _ _ _ _ q hq => hq.2⟩
  | case5 key' value priority hcmp left =>
    exact ⟨h.2.2.1, fun q hq => (h.children hq).1, fun _ _ _ _ _ q hq => hq.1⟩
  | case6 key' value priority hcmp lkey lvalue lpriority ll lr rkey rvalue rpriority rl rr hlt
      removed ih =>
    obtain rfl : key = key' := compare_eq_iff_eq.mp hcmp
    obtain ⟨hl, hr, ⟨hll, hlr, hleft, hmiddle⟩, hright⟩ := h
    obtain ⟨hheap, -, hroot⟩ := ih ⟨hlr.mono hl, hr, hmiddle, hright⟩
    have hbelow := hroot _ _ _ _ rfl lpriority ⟨hlr, le_of_lt hlt⟩
    exact ⟨⟨hll, hbelow, hleft, hheap⟩, fun q hq => le_trans hq hl, fun _ _ _ _ _ q hq => hq.1⟩
  | case7 key' value priority hcmp lkey lvalue lpriority ll lr rkey rvalue rpriority rl rr hle
      removed ih =>
    obtain rfl : key = key' := compare_eq_iff_eq.mp hcmp
    obtain ⟨hl, hr, hleft, ⟨hrl, hrr, hmiddle, hright⟩⟩ := h
    obtain ⟨hheap, -, hroot⟩ := ih ⟨hl, hrl.mono hr, hleft, hmiddle⟩
    have hbelow := hroot _ _ _ _ rfl rpriority ⟨not_lt.mp hle, hrl⟩
    exact ⟨⟨hbelow, hrr, hheap, hright⟩, fun q hq => le_trans hq hr, fun _ _ _ _ _ q hq => hq.2⟩

omit [LinearOrder K] in
theorem Heap.le (h : Heap t) (hq : AtLeast q t) : ∀ e ∈ inOrder t, q ≤ e.2.2 := by
  induction t with
  | nil => nofun
  | node key value priority left right ihl ihr =>
    obtain ⟨hl, hr, hleft, hright⟩ := h
    simp only [inOrder, List.forall_mem_append, List.forall_mem_cons]
    exact ⟨ihl hleft (hl.mono hq), hq, ihr hright (hr.mono hq)⟩

end Heap

end TreapNode

/-! ## Runs -/

inductive TreapCall (K V P : Type)
  | insert (key : K) (value : V) (priority : P)
  | remove (key : K)

namespace TreapCall

open TreapNode

variable {K V P : Type} [LinearOrder K] [LinearOrder P]

def onTree (t : TreapNode K V P) : TreapCall K V P → TreapNode K V P
  | insert key value priority => insertRec key value priority t
  | remove key => (removeRec key t).2

def onMap (m : K → Option (V × P)) : TreapCall K V P → K → Option (V × P)
  | insert key value priority => Function.update m key (some (value, priority))
  | remove key => Function.update m key none

/-- Every insertion has a key that is absent at its time. -/
def Fresh (calls : List (TreapCall K V P)) : Prop :=
  ∀ front key value priority back, calls = front ++ insert key value priority :: back →
    front.foldl onMap (fun _ => none) key = none

/-- The tree holds the entries of the map, in ascending order. -/
structure Represents (t : TreapNode K V P) (m : K → Option (V × P)) : Prop where
  sorted : Sorted t
  mem_iff : ∀ key entry, (key, entry) ∈ inOrder t ↔ m key = some entry

variable {t : TreapNode K V P} {m : K → Option (V × P)}

theorem Represents.step (h : Represents t m) (call : TreapCall K V P) :
    Represents (call.onTree t) (call.onMap m) := by
  cases call with
  | insert key value priority =>
    have hentries := @inOrder_insertRec K V P _ _ key value priority t h.sorted
    constructor
    · rw [Sorted, onTree, hentries, put, List.pairwise_append, List.pairwise_cons]
      refine ⟨h.sorted.filter _, ⟨fun e he => ?_, h.sorted.filter _⟩, fun e he e' he' => ?_⟩
      · simpa using (List.mem_filter.mp he).2
      · have hlt : e.1 < key := by simpa using (List.mem_filter.mp he).2
        obtain rfl | he' := List.mem_cons.mp he'
        · exact hlt
        · exact lt_trans hlt (by simpa using (List.mem_filter.mp he').2)
    · intro key' entry
      rw [onTree, hentries, onMap]
      by_cases heq : key' = key
      · subst heq
        simp [put, eq_comm]
      · simp [put, heq, ← h.mem_iff, ← and_or_left]
  | remove key =>
    have hentries := @inOrder_removeRec K V P _ _ key t h.sorted
    constructor
    · rw [Sorted, onTree, hentries]
      exact h.sorted.filter _
    · intro key' entry
      rw [onTree, hentries, onMap]
      by_cases heq : key' = key
      · subst heq
        simp [without]
      · simp [without, heq, ← h.mem_iff]

omit [LinearOrder P] in
theorem Represents.getRec_eq (h : Represents t m) (key : K) :
    getRec key t = (m key).map Prod.fst := by
  ext value
  rw [getRec_eq_some_iff h.sorted]
  simp [h.mem_iff]

/-- Calls lead to a tree that holds what they lead to as a map, and to a heap if every inserted
key is new. -/
theorem represents_foldl (calls : List (TreapCall K V P)) :
    Represents (calls.foldl onTree .nil) (calls.foldl onMap fun _ => none) ∧
      (Fresh calls → Heap (calls.foldl onTree .nil)) := by
  induction calls using List.reverseRecOn with
  | nil => exact ⟨⟨List.Pairwise.nil, by simp [inOrder]⟩, fun _ => trivial⟩
  | append_singleton front call ih =>
    obtain ⟨hrep, hheap⟩ := ih
    simp only [List.foldl_append]
    refine ⟨hrep.step call, fun hfresh => ?_⟩
    have hbefore : Heap (front.foldl onTree .nil) := hheap fun front' key value priority back heq =>
      hfresh front' key value priority (back ++ [call]) (by rw [heq]; simp)
    cases call with
    | insert key value priority =>
      have habsent := hfresh front key value priority [] rfl
      refine (hbefore.insertRec fun e he heq => ?_).1
      rw [← heq, (hrep.mem_iff e.1 e.2).mp he] at habsent
      cases habsent
    | remove key => exact hbefore.removeRec.1

end TreapCall

open TreapNode TreapCall

end Starfish.Core
