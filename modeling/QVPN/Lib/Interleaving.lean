import QVPN.Lib.Memory

/-!
# Interleavings of independent components

A system is made of components, and every action belongs to one of them. What an action answers,
and what it makes of its component, depends on that component alone; it leaves the others as they
are. Then a run of the whole system is nothing but the runs of its components: each component sees
its own actions in their order, whatever the others do in between, and the system fails only if one
of its components does.
-/

namespace Interleaving

open Memory

section Run

variable {σ α β : Type}

/-- Take the actions one after the other: their answers, and the last state. -/
def run (step : σ → α → Except Fault (β × σ)) (s : σ) : List α → Except Fault (List β × σ)
  | [] => .ok ([], s)
  | a :: actions => do
    let (b, s) ← step s a
    let (bs, s) ← run step s actions
    return (b :: bs, s)

/-- A run begins with its first step. -/
theorem run_cons_eq_ok_iff {step : σ → α → Except Fault (β × σ)} {s s' : σ} {a : α}
    {actions : List α} {answers : List β} :
    run step s (a :: actions) = .ok (answers, s') ↔ ∃ b t rest, step s a = .ok (b, t) ∧
      run step t actions = .ok (rest, s') ∧ answers = b :: rest := by
  constructor
  · intro h
    obtain ⟨⟨b, t⟩, hstep, h⟩ := bind_eq_ok_iff.mp h
    obtain ⟨⟨rest, u⟩, hrest, h⟩ := bind_eq_ok_iff.mp h
    cases Except.ok.inj h
    exact ⟨b, t, rest, hstep, hrest, rfl⟩
  · rintro ⟨b, t, rest, hstep, hrest, rfl⟩
    rw [run, hstep, ok_bind]
    dsimp only
    rw [hrest]
    rfl

/-- Every action is answered once. -/
theorem run_length {step : σ → α → Except Fault (β × σ)} {s s' : σ} {actions : List α}
    {answers : List β} (h : run step s actions = .ok (answers, s')) :
    answers.length = actions.length := by
  induction actions generalizing s answers with
  | nil =>
    cases Except.ok.inj h
    rfl
  | cons a actions ih =>
    obtain ⟨b, t, rest, -, hrest, rfl⟩ := run_cons_eq_ok_iff.mp h
    rw [List.length_cons, List.length_cons, ih hrest]

end Run

section Components

variable {ι σ α β : Type} {τ : ι → Type} {who : α → ι} {view : ∀ i, σ → τ i}
  {step : σ → α → Except Fault (β × σ)} {stepOf : ∀ i, τ i → α → Except Fault (β × τ i)}

variable (who view step stepOf) in
/-- An action is a step of its own component and leaves the others alone. -/
structure Independent : Prop where
  own : ∀ s a, (fun r => (r.1, view (who a) r.2)) <$> step s a = stepOf (who a) (view (who a) s) a
  others : ∀ s a b s', step s a = .ok (b, s') → ∀ i, i ≠ who a → view i s' = view i s

/-- A step of the system is a step of the component that the action belongs to. -/
theorem Independent.step_own (h : Independent who view step stepOf) {s s' : σ} {a : α} {b : β}
    (hstep : step s a = .ok (b, s')) :
    stepOf (who a) (view (who a) s) a = .ok (b, view (who a) s') := by
  rw [← h.own, hstep]
  rfl

/-- Where the component can take its step, so can the system. -/
theorem Independent.exists_step (h : Independent who view step stepOf) {s : σ} {a : α} {b : β}
    {t : τ (who a)} (hstep : stepOf (who a) (view (who a) s) a = .ok (b, t)) :
    ∃ s', step s a = .ok (b, s') ∧ view (who a) s' = t := by
  rw [← h.own] at hstep
  obtain ⟨⟨b', s'⟩, hok, hpair⟩ := map_eq_ok_iff.mp hstep
  cases hpair
  exact ⟨s', hok, rfl⟩

variable [DecidableEq ι]

/-- The actions of one component. -/
def actionsOf (who : α → ι) (i : ι) (actions : List α) : List α := actions.filter fun a => who a = i

/-- The answers to the actions of one component. -/
def answersOf (who : α → ι) (i : ι) (actions : List α) (answers : List β) : List β :=
  ((actions.zip answers).filter fun p => who p.1 = i).map Prod.snd

/-- Each component runs as if its actions were the only ones. -/
theorem Independent.run_component (h : Independent who view step stepOf) {s s' : σ}
    {actions : List α} {answers : List β} (hrun : run step s actions = .ok (answers, s')) (i : ι) :
    run (stepOf i) (view i s) (actionsOf who i actions) =
      .ok (answersOf who i actions answers, view i s') := by
  induction actions generalizing s answers with
  | nil =>
    cases Except.ok.inj hrun
    rfl
  | cons a actions ih =>
    obtain ⟨b, t, rest, hstep, hrest, rfl⟩ := run_cons_eq_ok_iff.mp hrun
    have hlater := ih hrest
    by_cases hi : who a = i
    · subst hi
      rw [actionsOf, List.filter_cons_of_pos (by simp), answersOf, List.zip_cons_cons,
        List.filter_cons_of_pos (by simp), List.map_cons]
      exact run_cons_eq_ok_iff.mpr ⟨b, view (who a) t, _, h.step_own hstep, hlater, rfl⟩
    · rw [actionsOf, List.filter_cons_of_neg (by simpa using hi), answersOf, List.zip_cons_cons,
        List.filter_cons_of_neg (by simpa using hi), ← h.others s a b t hstep i (Ne.symm hi)]
      exact hlater

/-- If every component can take its own actions, the system can take all of them. -/
theorem Independent.exists_run (h : Independent who view step stepOf) {s : σ} {actions : List α}
    (hruns : ∀ i, ∃ r, run (stepOf i) (view i s) (actionsOf who i actions) = .ok r) :
    ∃ r, run step s actions = .ok r := by
  induction actions generalizing s with
  | nil => exact ⟨([], s), rfl⟩
  | cons a actions ih =>
    have hown : actionsOf who (who a) (a :: actions) = a :: actionsOf who (who a) actions := by
      rw [actionsOf, List.filter_cons_of_pos (by simp), actionsOf]
    obtain ⟨⟨answers, u⟩, hfirst⟩ := hruns (who a)
    rw [hown] at hfirst
    obtain ⟨b, t, rest, hstep, hrest, -⟩ := run_cons_eq_ok_iff.mp hfirst
    obtain ⟨s', hok, hview⟩ := h.exists_step hstep
    have hlater : ∀ i, ∃ r, run (stepOf i) (view i s') (actionsOf who i actions) = .ok r := by
      intro i
      by_cases hi : i = who a
      · subst hi
        rw [hview]
        exact ⟨_, hrest⟩
      · obtain ⟨r, hr⟩ := hruns i
        rw [actionsOf, List.filter_cons_of_neg (by simpa using Ne.symm hi)] at hr
        rw [h.others s a b s' hok i hi]
        exact ⟨r, hr⟩
    obtain ⟨⟨later, s''⟩, hrun⟩ := ih hlater
    exact ⟨_, run_cons_eq_ok_iff.mpr ⟨b, s', later, hok, hrun, rfl⟩⟩

/-- The actions of a component are actions of no other component. -/
theorem actionsOf_actionsOf (who : α → ι) (i j : ι) (actions : List α) :
    actionsOf who j (actionsOf who i actions) = if j = i then actionsOf who i actions else [] := by
  rw [actionsOf, actionsOf, List.filter_filter]
  split
  · next hij =>
    subst hij
    simp
  · next hij =>
    rw [List.filter_eq_nil_iff]
    intro a _ hboth
    simp only [Bool.and_eq_true, decide_eq_true_eq] at hboth
    exact hij (hboth.1.symm.trans hboth.2)

/-- Left alone, a component answers as it did among the others, and only it changes. -/
theorem Independent.run_alone (h : Independent who view step stepOf) {s s' : σ} {actions : List α}
    {answers : List β} (hrun : run step s actions = .ok (answers, s')) (i : ι) :
    ∃ t, run step s (actionsOf who i actions) = .ok (answersOf who i actions answers, t) ∧
      view i t = view i s' ∧ ∀ j, j ≠ i → view j t = view j s := by
  have hcomponent := h.run_component hrun i
  have hall : ∀ j, ∃ r, run (stepOf j) (view j s)
      (actionsOf who j (actionsOf who i actions)) = .ok r := by
    intro j
    rw [actionsOf_actionsOf]
    split
    · next hij =>
      subst hij
      exact ⟨_, hcomponent⟩
    · exact ⟨_, rfl⟩
  obtain ⟨⟨alone, t⟩, halone⟩ := h.exists_run hall
  have hself := h.run_component halone i
  rw [actionsOf_actionsOf, if_pos rfl, hcomponent] at hself
  have hanswers : answersOf who i (actionsOf who i actions) alone = alone := by
    rw [answersOf, List.filter_eq_self.mpr, List.map_snd_zip]
    · exact Nat.le_of_eq (run_length halone)
    · intro p hp
      exact (List.mem_filter.mp (List.of_mem_zip hp).1).2
  rw [hanswers] at hself
  obtain ⟨hsame, hview⟩ := Prod.mk.inj (Except.ok.inj hself)
  rw [← hsame] at halone
  refine ⟨t, halone, hview.symm, ?_⟩
  intro j hj
  have hother := h.run_component halone j
  rw [actionsOf_actionsOf, if_neg hj] at hother
  exact (congrArg Prod.snd (Except.ok.inj hother)).symm

/-- Without the actions of one component, the others answer as they did, whatever the state of that
component is; it keeps this state. -/
theorem Independent.run_without (h : Independent who view step stepOf) {s s' u : σ}
    {actions : List α} {answers : List β} (hrun : run step s actions = .ok (answers, s')) (i : ι)
    (hu : ∀ j, j ≠ i → view j u = view j s) :
    ∃ t, run step u (actions.filter fun a => who a ≠ i) =
        .ok (((actions.zip answers).filter fun p => who p.1 ≠ i).map Prod.snd, t) ∧
      (∀ j, j ≠ i → view j t = view j s') ∧ view i t = view i u := by
  induction actions generalizing s u answers with
  | nil =>
    cases Except.ok.inj hrun
    exact ⟨u, rfl, hu, rfl⟩
  | cons a actions ih =>
    obtain ⟨b, t, rest, hstep, hrest, rfl⟩ := run_cons_eq_ok_iff.mp hrun
    by_cases hi : who a = i
    · rw [List.filter_cons_of_neg (by simpa using hi), List.zip_cons_cons,
        List.filter_cons_of_neg (by simpa using hi)]
      apply ih hrest
      intro j hj
      rw [hu j hj, h.others s a b t hstep j (fun heq => hj (heq.trans hi))]
    · have hown := h.step_own hstep
      rw [← hu (who a) hi] at hown
      obtain ⟨u', hok, hview⟩ := h.exists_step hown
      have hothers := h.others u a b u' hok
      obtain ⟨v, hlater, hagree, hkept⟩ := ih hrest (u := u') (by
        intro j hj
        by_cases hja : j = who a
        · rw [hja, hview]
        · rw [hothers j hja, hu j hj, h.others s a b t hstep j hja])
      rw [List.filter_cons_of_pos (by simpa using hi), List.zip_cons_cons,
        List.filter_cons_of_pos (by simpa using hi), List.map_cons]
      exact ⟨v, run_cons_eq_ok_iff.mpr ⟨b, u', _, hok, hlater, rfl⟩, hagree,
        hkept.trans (hothers i (Ne.symm hi))⟩

/-- The system can take its actions exactly when it can take those of each component alone. -/
theorem Independent.run_iff_alone (h : Independent who view step stepOf) (s : σ)
    (actions : List α) : (∃ r, run step s actions = .ok r) ↔
      ∀ i, ∃ r, run step s (actionsOf who i actions) = .ok r := by
  constructor
  · rintro ⟨⟨answers, s'⟩, hrun⟩ i
    obtain ⟨t, halone, -⟩ := h.run_alone hrun i
    exact ⟨_, halone⟩
  · intro halone
    apply h.exists_run
    intro i
    obtain ⟨⟨answers, t⟩, hrun⟩ := halone i
    have hcomponent := h.run_component hrun i
    rw [actionsOf_actionsOf, if_pos rfl] at hcomponent
    exact ⟨_, hcomponent⟩

end Components

end Interleaving
