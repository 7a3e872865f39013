import Indirection.Fault

/-!
# Trails

A `Trail α` is what a walk leaves behind: the items it produced, in order, and the fault that ended
it, if one did. Items produced before a fault stay.

Main definitions:

* `Trail.one`, `Trail.fail` — a single item, a fault;
* `p ++ q` — `p`, and then `q` unless `p` ended in a fault;
* `Trail.concat f xs` — the trails of all elements of a list, one after the other;
* `Trail.bind p f` — every item of a trail replaced by a trail.
-/

namespace Indirection

/-- The items of a walk and the fault that ended it. -/
structure Trail (α : Type) where
  items : List α := []
  fault : Option Fault := none

namespace Trail

variable {α β : Type}

/-- Nothing happened. -/
def nil : Trail α := {}

/-- One item. -/
def one (a : α) : Trail α := { items := [a] }

/-- A fault before any item. -/
def fail (f : Fault) : Trail α := { fault := some f }

/-- One trail after another; a fault of the first one ends both. -/
def append (p q : Trail α) : Trail α :=
  match p.fault with
  | some _ => p
  | none => { items := p.items ++ q.items, fault := q.fault }

instance : Append (Trail α) := ⟨append⟩

/-- The trails of the elements of a list, one after the other; no element behind a fault is looked
    at. -/
def concat (f : β → Trail α) : List β → Trail α
  | [] => nil
  | b :: rest =>
    match f b with
    | ⟨items, some fault⟩ => ⟨items, some fault⟩
    | ⟨items, none⟩ =>
      let others := concat f rest
      ⟨items ++ others.items, others.fault⟩

/-- Every item replaced by a trail; the fault of `p` comes last. -/
def bind (p : Trail β) (f : β → Trail α) : Trail α :=
  concat f p.items ++ { fault := p.fault }

/-- The trail of a result, or its fault. -/
def ofExcept (r : Except Fault β) (f : β → Trail α) : Trail α :=
  match r with
  | .ok b => f b
  | .error e => fail e

/-! ### Laws -/

@[simp] theorem nil_append (p : Trail α) : nil ++ p = p := rfl

@[simp] theorem append_nil (p : Trail α) : p ++ nil = p := by
  obtain ⟨items, fault⟩ := p
  cases fault
  · show Trail.mk (items ++ []) none = _
    rw [List.append_nil]
  · rfl

@[simp] theorem fail_append (f : Fault) (p : Trail α) : fail f ++ p = fail f := rfl

@[simp] theorem items_one (a : α) : (one a).items = [a] := rfl

@[simp] theorem fault_one (a : α) : (one a).fault = none := rfl

@[simp] theorem items_fail (f : Fault) : (fail f : Trail α).items = [] := rfl

@[simp] theorem fault_fail (f : Fault) : (fail f : Trail α).fault = some f := rfl

@[simp] theorem items_nil : (nil : Trail α).items = [] := rfl

@[simp] theorem fault_nil : (nil : Trail α).fault = none := rfl

/-- Behind a trail without a fault, all items of the second one follow. -/
theorem append_of_fault_none {p : Trail α} (h : p.fault = none) (q : Trail α) :
    p ++ q = { items := p.items ++ q.items, fault := q.fault } := by
  show append p q = _
  simp [append, h]

/-- Behind a trail with a fault, nothing follows. -/
theorem append_of_fault_some {p : Trail α} {f : Fault} (h : p.fault = some f) (q : Trail α) :
    p ++ q = p := by
  show append p q = _
  simp [append, h]

/-- Two trails run through exactly when both do. -/
theorem fault_append_eq_none (p q : Trail α) :
    (p ++ q).fault = none ↔ p.fault = none ∧ q.fault = none := by
  cases h : p.fault with
  | none => simp [append_of_fault_none h]
  | some f => simp [append_of_fault_some h, h]

/-- Trails behind one another can be put together in any order. -/
theorem append_assoc (p q r : Trail α) : p ++ q ++ r = p ++ (q ++ r) := by
  obtain ⟨ps, pf⟩ := p
  obtain ⟨qs, qf⟩ := q
  cases pf
  · cases qf
    · show Trail.mk (ps ++ qs ++ r.items) r.fault = Trail.mk (ps ++ (qs ++ r.items)) r.fault
      rw [List.append_assoc]
    · rfl
  · rfl

/-- An item of two trails is an item of one of them. -/
theorem mem_items_append {p q : Trail α} {a : α} (h : a ∈ (p ++ q).items) :
    a ∈ p.items ∨ a ∈ q.items := by
  cases hp : p.fault with
  | none => rw [append_of_fault_none hp] at h; simpa using h
  | some f => rw [append_of_fault_some hp] at h; exact .inl h

@[simp] theorem concat_nil (f : β → Trail α) : concat f [] = nil := rfl

/-- A concatenation is the trail of the first element and then that of the others. -/
@[simp] theorem concat_cons (f : β → Trail α) (b : β) (rest : List β) :
    concat f (b :: rest) = f b ++ concat f rest := by
  show (match f b with
    | ⟨items, some fault⟩ => ⟨items, some fault⟩
    | ⟨items, none⟩ => ⟨items ++ (concat f rest).items, (concat f rest).fault⟩ : Trail α) = _
  rcases f b with ⟨items, _ | fault⟩ <;> rfl

/-- A trail over a mapped list is a trail over the list. -/
theorem concat_map {γ : Type} (f : β → Trail α) (g : γ → β) (xs : List γ) :
    concat f (xs.map g) = concat (fun c => f (g c)) xs := by
  induction xs with
  | nil => rfl
  | cons c rest ih => rw [List.map_cons, concat_cons, concat_cons, ih]

/-- A trail depends only on the pieces at the members of its list. -/
theorem concat_congr {f g : β → Trail α} {xs : List β} (h : ∀ b ∈ xs, f b = g b) :
    concat f xs = concat g xs := by
  induction xs with
  | nil => rfl
  | cons b rest ih =>
    rw [concat_cons, concat_cons, h b List.mem_cons_self,
      ih fun c hc => h c (List.mem_cons_of_mem _ hc)]

/-- An item of a concatenation is an item of one of its trails. -/
theorem mem_items_concat {f : β → Trail α} {xs : List β} {a : α} (h : a ∈ (concat f xs).items) :
    ∃ b ∈ xs, a ∈ (f b).items := by
  induction xs with
  | nil => cases h
  | cons b rest ih =>
    rw [concat_cons] at h
    rcases mem_items_append h with h | h
    · exact ⟨b, List.mem_cons_self, h⟩
    · obtain ⟨c, hc, h⟩ := ih h
      exact ⟨c, List.mem_cons_of_mem _ hc, h⟩

/-- Only a result has items. -/
theorem mem_items_ofExcept {r : Except Fault β} {f : β → Trail α} {a : α}
    (h : a ∈ (ofExcept r f).items) : ∃ b, r = .ok b ∧ a ∈ (f b).items := by
  cases r with
  | ok b => exact ⟨b, rfl, h⟩
  | error g => cases h

/-- A trail over two lists is the one behind the other. -/
theorem concat_append (f : β → Trail α) (xs ys : List β) :
    concat f (xs ++ ys) = concat f xs ++ concat f ys := by
  induction xs with
  | nil => rfl
  | cons b rest ih => rw [List.cons_append, concat_cons, concat_cons, ih, append_assoc]

/-- Without a fault, the items of all elements follow each other. -/
theorem concat_of_faultless {f : β → Trail α} {xs : List β} (h : ∀ b ∈ xs, (f b).fault = none) :
    concat f xs = { items := xs.flatMap fun b => (f b).items } := by
  induction xs with
  | nil => rfl
  | cons b rest ih =>
    have hb : (f b).fault = none := h b List.mem_cons_self
    rw [concat_cons, append_of_fault_none hb, ih fun c hc => h c (List.mem_cons_of_mem _ hc),
      List.flatMap_cons]

/-- The first fault ends a concatenation, behind the items of its own element. -/
theorem concat_of_first_fault {f : β → Trail α} {xs ys : List β} {b : β} {g : Fault}
    (h : ∀ c ∈ xs, (f c).fault = none) (hb : (f b).fault = some g) :
    concat f (xs ++ b :: ys) =
      { items := (xs ++ [b]).flatMap fun c => (f c).items, fault := some g } := by
  rw [concat_append, concat_of_faultless h, append_of_fault_none rfl, concat_cons,
    append_of_fault_some hb, hb, List.flatMap_append, List.flatMap_singleton]

/-- A concatenation runs through exactly when the trails of all elements do. -/
theorem fault_concat_eq_none {f : β → Trail α} {xs : List β} :
    (concat f xs).fault = none ↔ ∀ b ∈ xs, (f b).fault = none := by
  induction xs with
  | nil => simp
  | cons b rest ih => rw [concat_cons, fault_append_eq_none, ih, List.forall_mem_cons]

/-- A bound trail that runs through holds the items of the trails of all items, in order. -/
theorem bind_of_fault_none {p : Trail β} {f : β → Trail α} (h : (p.bind f).fault = none) :
    p.fault = none ∧ (∀ b ∈ p.items, (f b).fault = none) ∧
      p.bind f = { items := p.items.flatMap fun b => (f b).items } := by
  obtain ⟨hitems, hfault⟩ := (fault_append_eq_none _ _).1 h
  have hall := fault_concat_eq_none.1 hitems
  refine ⟨hfault, hall, ?_⟩
  rw [bind, concat_of_faultless hall, append_of_fault_none rfl, hfault, List.append_nil]

/-- What is bound to items without a fault are their trails. -/
@[simp] theorem bind_items (xs : List β) (f : β → Trail α) :
    ({ items := xs } : Trail β).bind f = concat f xs :=
  append_nil _

/-- What is bound to a second trail comes behind what is bound to the first one. -/
theorem bind_append {p : Trail β} (h : p.fault = none) (q : Trail β) (f : β → Trail α) :
    (p ++ q).bind f = p.bind f ++ q.bind f := by
  have hnil : ({ fault := none } : Trail α) = nil := rfl
  rw [append_of_fault_none h, bind, bind, bind, h, concat_append, hnil, append_nil, append_assoc]

/-- Binding in each element of a concatenation is binding in the whole, if that runs through. -/
theorem concat_bind {γ : Type} {f : γ → Trail β} {xs : List γ} (h : (concat f xs).fault = none)
    (g : β → Trail α) : concat (fun c => (f c).bind g) xs = (concat f xs).bind g := by
  induction xs with
  | nil => rfl
  | cons c rest ih =>
    rw [concat_cons] at h
    obtain ⟨hfirst, hrest⟩ := (fault_append_eq_none _ _).1 h
    rw [concat_cons, concat_cons, bind_append hfirst, ih hrest]

end Trail

end Indirection
