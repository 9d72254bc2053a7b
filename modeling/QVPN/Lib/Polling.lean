import QVPN.Lib.Memory

/-!
# Polling the entries of a table

A loop goes over the entries of a table again and again and asks each of them for an item. Items are
handled with a state that the entries share, and handling an item tells whether its entry goes out of
the table. Between two rounds others change the table. The order of the visits does not matter to an
entry: what is taken from it are its own items, up to the first that takes the entry out.
-/

namespace Polling

open Memory

/-- An item that was taken from an entry, and what was made of it. -/
structure Taken (κ β α ω : Type) where
  key : κ
  entry : β
  item : α
  output : ω

/-- The table, and what its entries share. -/
structure State (κ β σ : Type) where
  table : κ → Option β
  shared : σ

/-- What others do to the table before a round, the order of the visits, and the items that are there
for the keys. -/
structure Round (κ β α : Type) where
  others : (κ → Option β) → κ → Option β
  order : List κ
  items : κ → Option α

variable {κ β α α' ω σ : Type} [DecidableEq κ]

/-- Visit keys one after the other. A key without an entry, or without an item, is passed by. -/
def visit (handle : κ → β → α → σ → Except Fault (ω × Bool × σ)) (items : κ → Option α) :
    List κ → State κ β σ → Except Fault (List (Taken κ β α ω) × State κ β σ)
  | [], s => .ok ([], s)
  | key :: later, s =>
    match s.table key, items key with
    | some entry, some item => do
      let (output, drop, shared) ← handle key entry item s.shared
      let table := if drop then Function.update s.table key none else s.table
      let (rest, s) ← visit handle items later ⟨table, shared⟩
      return (⟨key, entry, item, output⟩ :: rest, s)
    | _, _ => visit handle items later s

def rounds (handle : κ → β → α → σ → Except Fault (ω × Bool × σ)) :
    List (Round κ β α) → State κ β σ → Except Fault (List (Taken κ β α ω) × State κ β σ)
  | [], s => .ok ([], s)
  | r :: later, s => do
    let (taken, s) ← visit handle r.items r.order ⟨r.others s.table, s.shared⟩
    let (rest, s) ← rounds handle later s
    return (taken ++ rest, s)

/-- Each round visits every entry that the table has at its start, once. -/
def Visits (handle : κ → β → α → σ → Except Fault (ω × Bool × σ)) :
    List (Round κ β α) → State κ β σ → Prop
  | [], _ => True
  | r :: later, s => r.order.Nodup ∧ (∀ key, key ∈ r.order ↔ (r.others s.table key).isSome) ∧
    ∀ taken t, visit handle r.items r.order ⟨r.others s.table, s.shared⟩ = .ok (taken, t) →
      Visits handle later t

/-- The items up to the first one that stops. -/
def takenUntil (stops : α → Bool) : List (Option α) → List α
  | [] => []
  | none :: later => takenUntil stops later
  | some a :: later => if stops a then [a] else a :: takenUntil stops later

section Taken

/-- What was taken from the entry of a key. -/
def takenFrom (key : κ) (taken : List (Taken κ β α ω)) : List (β × α) :=
  (taken.filter fun x => x.key = key).map fun x => (x.entry, x.item)

@[simp] theorem takenFrom_nil (key : κ) : takenFrom key ([] : List (Taken κ β α ω)) = [] := rfl

theorem takenFrom_append (key : κ) (xs ys : List (Taken κ β α ω)) :
    takenFrom key (xs ++ ys) = takenFrom key xs ++ takenFrom key ys := by
  rw [takenFrom, List.filter_append, List.map_append]
  rfl

theorem takenFrom_self (key : κ) (entry : β) (item : α) (output : ω) (xs : List (Taken κ β α ω)) :
    takenFrom key (⟨key, entry, item, output⟩ :: xs) = (entry, item) :: takenFrom key xs := by
  rw [takenFrom, List.filter_cons_of_pos (by simp), List.map_cons]
  rfl

theorem takenFrom_other {key k : κ} (h : k ≠ key) (entry : β) (item : α) (output : ω)
    (xs : List (Taken κ β α ω)) :
    takenFrom key (⟨k, entry, item, output⟩ :: xs) = takenFrom key xs := by
  rw [takenFrom, List.filter_cons_of_neg (by simpa using h)]
  rfl

end Taken

section Key

variable {handle : κ → β → α → σ → Except Fault (ω × Bool × σ)} {stops : α → Bool}

/-- A visit of a key first, then the others. -/
theorem visit_cons_eq_ok_iff {items : κ → Option α} {key : κ} {later : List κ} {s t : State κ β σ}
    {taken : List (Taken κ β α ω)} :
    visit handle items (key :: later) s = .ok (taken, t) ↔
      ((s.table key = none ∨ items key = none) ∧ visit handle items later s = .ok (taken, t)) ∨
      ∃ entry item output drop shared rest, s.table key = some entry ∧ items key = some item ∧
        handle key entry item s.shared = .ok (output, drop, shared) ∧
        visit handle items later
          ⟨if drop then Function.update s.table key none else s.table, shared⟩ = .ok (rest, t) ∧
        taken = ⟨key, entry, item, output⟩ :: rest := by
  rw [visit]
  cases hentry : s.table key with
  | none => simp
  | some entry =>
    cases hitem : items key with
    | none => simp
    | some item =>
      constructor
      · intro h
        obtain ⟨⟨output, drop, shared⟩, hhandle, h⟩ := bind_eq_ok_iff.mp h
        obtain ⟨⟨rest, u⟩, hrest, h⟩ := bind_eq_ok_iff.mp h
        cases Except.ok.inj h
        exact Or.inr ⟨entry, item, output, drop, shared, rest, rfl, rfl, hhandle, hrest, rfl⟩
      · intro h
        obtain ⟨hnone | hnone, -⟩ | ⟨_, _, output, drop, shared, rest, hsame, hsame', hhandle, hrest,
          rfl⟩ := h
        · cases hnone
        · cases hnone
        · cases hsame
          cases hsame'
          dsimp only
          rw [hhandle, ok_bind]
          dsimp only
          rw [hrest]
          rfl

/-- Nothing is taken from a key that is not visited, and its entry stays. -/
theorem visit_other {items : κ → Option α} {order : List κ} {s t : State κ β σ}
    {taken : List (Taken κ β α ω)} (h : visit handle items order s = .ok (taken, t)) {key : κ}
    (hkey : key ∉ order) : takenFrom key taken = [] ∧ t.table key = s.table key := by
  induction order generalizing s taken with
  | nil =>
    cases Except.ok.inj h
    exact ⟨rfl, rfl⟩
  | cons k later ih =>
    obtain ⟨hne, hlater⟩ := List.ne_and_not_mem_of_not_mem_cons hkey
    obtain ⟨-, hrest⟩ | ⟨entry, item, output, drop, shared, rest, -, -, -, hrest, rfl⟩ :=
      visit_cons_eq_ok_iff.mp h
    · exact ih hrest hlater
    · obtain ⟨hnone, hkept⟩ := ih hrest hlater
      refine ⟨?_, ?_⟩
      · rw [takenFrom_other (Ne.symm hne), hnone]
      · rw [hkept]
        dsimp only
        split
        · exact Function.update_of_ne hne ..
        · rfl

variable (hstops : ∀ key entry item shared output drop shared',
  handle key entry item shared = .ok (output, drop, shared') → drop = stops item)
include hstops

/-- A key that is visited once gives its item, and its entry goes out if the item stops it. -/
theorem visit_key {items : κ → Option α} {order : List κ} (hnodup : order.Nodup)
    {s t : State κ β σ} {taken : List (Taken κ β α ω)}
    (h : visit handle items order s = .ok (taken, t)) {key : κ} (hkey : key ∈ order) {entry : β}
    (hentry : s.table key = some entry) :
    takenFrom key taken = (items key).toList.map (entry, ·) ∧
      t.table key = if (items key).any stops then none else some entry := by
  induction order generalizing s taken with
  | nil => cases hkey
  | cons k later ih =>
    obtain ⟨hlater, hnodup⟩ := List.nodup_cons.mp hnodup
    obtain ⟨hpassed, hrest⟩ | ⟨entry', item, output, drop, shared, rest, hentry', hitem, hhandle,
      hrest, rfl⟩ := visit_cons_eq_ok_iff.mp h
    · obtain rfl | hmem := List.mem_cons.mp hkey
      · obtain hnone | hnone := hpassed
        · rw [hentry] at hnone
          cases hnone
        · obtain ⟨htaken, hkept⟩ := visit_other hrest hlater
          rw [hnone, htaken, hkept, hentry]
          exact ⟨rfl, rfl⟩
      · exact ih hnodup hrest hmem hentry
    · obtain rfl | hmem := List.mem_cons.mp hkey
      · cases hentry.symm.trans hentry'
        obtain ⟨htaken, hkept⟩ := visit_other hrest hlater
        rw [takenFrom_self, htaken, hkept, hitem, hstops _ _ _ _ _ _ _ hhandle]
        refine ⟨rfl, ?_⟩
        dsimp only [Option.any_some]
        split
        · exact Function.update_self ..
        · exact hentry
      · have hne : key ≠ k := fun heq => hlater (heq ▸ hmem)
        rw [takenFrom_other (Ne.symm hne)]
        apply ih hnodup hrest hmem
        dsimp only
        split
        · rw [Function.update_of_ne hne, hentry]
        · exact hentry

/-- Whatever is taken from the other entries, in whatever order, and whatever others do to them: from
an entry that only the loop takes out, its own items are taken, up to the first that stops it, and
then it is out of the table. -/
theorem rounds_key {rs : List (Round κ β α)} {s t : State κ β σ} {taken : List (Taken κ β α ω)}
    (h : rounds handle rs s = .ok (taken, t)) (hvisits : Visits handle rs s) {key : κ}
    (hothers : ∀ r ∈ rs, ∀ table, r.others table key = table key) :
    takenFrom key taken = (s.table key).elim []
        (fun entry => (takenUntil stops (rs.map fun r => r.items key)).map (entry, ·)) ∧
      t.table key =
        if rs.any fun r => (r.items key).any stops then none else s.table key := by
  induction rs generalizing s taken with
  | nil =>
    cases Except.ok.inj h
    refine ⟨?_, rfl⟩
    cases t.table key <;> rfl
  | cons r rs ih =>
    obtain ⟨hnodup, horder, hlater⟩ := hvisits
    obtain ⟨⟨first, u⟩, hround, h⟩ := bind_eq_ok_iff.mp h
    obtain ⟨⟨rest, v⟩, hrest, h⟩ := bind_eq_ok_iff.mp h
    cases Except.ok.inj h
    obtain ⟨htaken, htable⟩ := ih hrest (hlater _ _ hround)
      fun r' hr' => hothers r' (List.mem_cons_of_mem _ hr')
    have hown := hothers r (List.mem_cons_self ..) s.table
    rw [takenFrom_append, htaken, htable, List.any_cons, List.map_cons]
    cases hentry : s.table key with
    | none =>
      rw [hentry] at hown
      have hout : key ∉ r.order := by
        rw [horder, hown]
        exact Bool.false_ne_true
      obtain ⟨hnone, hkept⟩ := visit_other hround hout
      rw [hnone, hkept]
      dsimp only
      rw [hown]
      exact ⟨rfl, by rw [ite_self, ite_self]⟩
    | some entry =>
      rw [hentry] at hown
      have hin : key ∈ r.order := by
        rw [horder, hown]
        rfl
      obtain ⟨hfirst, hkept⟩ := visit_key hstops hnodup hround hin hown
      rw [hfirst, hkept]
      cases hitem : r.items key with
      | none => exact ⟨rfl, rfl⟩
      | some item =>
        rw [takenUntil, Option.any_some]
        by_cases hstop : stops item = true
        · simp [hstop]
        · simp [hstop]

end Key

section Outputs

variable {handle : κ → β → α → σ → Except Fault (ω × Bool × σ)} {Inv : σ → Prop}
  {Good : κ → α → Prop}
  (hhandle : ∀ key entry item shared, Inv shared → Good key item →
    ∃ r, handle key entry item shared = .ok r ∧ Inv r.2.2)
include hhandle

/-- Visits of keys with good items come to an end. -/
theorem exists_visit {items : κ → Option α}
    (hgood : ∀ key item, items key = some item → Good key item) (order : List κ) {s : State κ β σ}
    (hs : Inv s.shared) : ∃ taken t, visit handle items order s = .ok (taken, t) ∧ Inv t.shared := by
  induction order generalizing s with
  | nil => exact ⟨[], s, rfl, hs⟩
  | cons key later ih =>
    cases hentry : s.table key with
    | none =>
      obtain ⟨taken, t, h, ht⟩ := ih hs
      exact ⟨taken, t, visit_cons_eq_ok_iff.mpr (Or.inl ⟨Or.inl hentry, h⟩), ht⟩
    | some entry =>
      cases hitem : items key with
      | none =>
        obtain ⟨taken, t, h, ht⟩ := ih hs
        exact ⟨taken, t, visit_cons_eq_ok_iff.mpr (Or.inl ⟨Or.inr hitem, h⟩), ht⟩
      | some item =>
        obtain ⟨⟨output, drop, shared⟩, hone, hshared⟩ :=
          hhandle key entry item s.shared hs (hgood key item hitem)
        obtain ⟨rest, t, h, ht⟩ := ih
          (s := ⟨if drop then Function.update s.table key none else s.table, shared⟩) hshared
        exact ⟨_, t, visit_cons_eq_ok_iff.mpr
          (Or.inr ⟨entry, item, output, drop, shared, rest, hentry, hitem, hone, h, rfl⟩), ht⟩

/-- So do rounds. -/
theorem exists_rounds {rs : List (Round κ β α)}
    (hgood : ∀ r ∈ rs, ∀ key item, r.items key = some item → Good key item) {s : State κ β σ}
    (hs : Inv s.shared) : ∃ taken t, rounds handle rs s = .ok (taken, t) ∧ Inv t.shared := by
  induction rs generalizing s with
  | nil => exact ⟨[], s, rfl, hs⟩
  | cons r rs ih =>
    obtain ⟨first, u, hround, hu⟩ := exists_visit hhandle (hgood r (List.mem_cons_self ..)) r.order
      (s := ⟨r.others s.table, s.shared⟩) hs
    obtain ⟨rest, t, hrest, ht⟩ := ih
      (fun r' hr' => hgood r' (List.mem_cons_of_mem _ hr')) hu
    refine ⟨first ++ rest, t, ?_, ht⟩
    rw [rounds, hround, ok_bind]
    dsimp only
    rw [hrest]
    rfl

/-- What is taken in a visit was there, and was handled. -/
theorem visit_taken {items : κ → Option α}
    (hgood : ∀ key item, items key = some item → Good key item) {order : List κ} {s t : State κ β σ}
    {taken : List (Taken κ β α ω)} (h : visit handle items order s = .ok (taken, t))
    (hs : Inv s.shared) : ∀ x ∈ taken, Good x.key x.item ∧ ∃ shared r, Inv shared ∧
      handle x.key x.entry x.item shared = .ok r ∧ r.1 = x.output := by
  induction order generalizing s taken with
  | nil =>
    cases Except.ok.inj h
    intro x hx
    cases hx
  | cons key later ih =>
    obtain ⟨-, hrest⟩ | ⟨entry, item, output, drop, shared, rest, -, hitem, hone, hrest, rfl⟩ :=
      visit_cons_eq_ok_iff.mp h
    · exact ih hrest hs
    · obtain ⟨r, hr, hshared⟩ := hhandle key entry item s.shared hs (hgood key item hitem)
      cases hone.symm.trans hr
      intro x hx
      obtain rfl | hx := List.mem_cons.mp hx
      · exact ⟨hgood key item hitem, s.shared, _, hs, hone, rfl⟩
      · exact ih hrest hshared x hx

/-- So was what is taken in rounds. -/
theorem rounds_taken {rs : List (Round κ β α)}
    (hgood : ∀ r ∈ rs, ∀ key item, r.items key = some item → Good key item) {s t : State κ β σ}
    {taken : List (Taken κ β α ω)} (h : rounds handle rs s = .ok (taken, t)) (hs : Inv s.shared) :
    ∀ x ∈ taken, Good x.key x.item ∧ ∃ shared r, Inv shared ∧
      handle x.key x.entry x.item shared = .ok r ∧ r.1 = x.output := by
  induction rs generalizing s taken with
  | nil =>
    cases Except.ok.inj h
    intro x hx
    cases hx
  | cons r rs ih =>
    obtain ⟨⟨first, u⟩, hround, h⟩ := bind_eq_ok_iff.mp h
    obtain ⟨⟨rest, v⟩, hrest, h⟩ := bind_eq_ok_iff.mp h
    cases Except.ok.inj h
    have hfirst := hgood r (List.mem_cons_self ..)
    obtain ⟨_, _, hsame, hu⟩ := exists_visit hhandle hfirst r.order
      (s := ⟨r.others s.table, s.shared⟩) hs
    cases hround.symm.trans hsame
    intro x hx
    obtain hx | hx := List.mem_append.mp hx
    · exact visit_taken hhandle hfirst hround hs x hx
    · exact ih (fun r' hr' => hgood r' (List.mem_cons_of_mem _ hr')) hrest hu x hx

end Outputs

end Polling
