import Mathlib.Data.List.Basic

/-!
# Runs of a guarded step function

A component whose environment decides what happens next is a function `step : σ → α → Option σ`:
`step s a = some t` says that action `a` is possible in `s` and leads to `t`.  `run` follows a
list of actions.  The rules below are what everything about whole runs is proved with:

* `run_inv`: what every step preserves holds at the end of every run;
* `run_log`: what the steps add to a log, a run adds to it;
* `run_inv_of_meets`: the invariant rule for runs whose steps all meet a condition (`Meets`);
* `follow` is a step function that has some of its actions in a given order, and `noting` one that
  keeps a record of what has happened;
* `throughout_iff_meets`: a property holds in *every* state of a run exactly when every step of
  it meets the condition, provided one step keeps the property exactly when it meets it;
  `run_iff_meets` is the same for a property of the *last* state of a run;
* `Leads` is what can happen by actions of one kind, such as those of the component itself.
-/

namespace AnyHttp.Lib

variable {σ α : Type*} (step : σ → α → Option σ)

/-- Follows the actions `as` from `s`; `none` as soon as one of them is not possible. -/
def run : σ → List α → Option σ
  | s, [] => some s
  | s, a :: as => (step s a).bind fun t => run t as

/-- Every step of the run along `as` from `s` meets the condition `Q`. -/
def Meets (Q : σ → α → Prop) : σ → List α → Prop
  | _, [] => True
  | s, a :: as => Q s a ∧ ∀ t, step s a = some t → Meets Q t as

/-- `P` holds in every state of the run along `as` from `s`, the first and the last included. -/
def Throughout (P : σ → Prop) : σ → List α → Prop
  | s, [] => P s
  | s, a :: as => P s ∧ ∀ t, step s a = some t → Throughout P t as

variable {step}

instance Meets.decidable {Q : σ → α → Prop} [∀ s a, Decidable (Q s a)] :
    ∀ s as, Decidable (Meets step Q s as)
  | _, [] => inferInstanceAs (Decidable True)
  | s, a :: as =>
    have : Decidable (∀ t, step s a = some t → Meets step Q t as) :=
      match step s a with
      | none => isTrue fun _ h => nomatch h
      | some t =>
        have := Meets.decidable (Q := Q) t as
        decidable_of_iff (Meets step Q t as)
          ⟨fun h _ hu => Option.some.inj hu ▸ h, fun h => h t rfl⟩
    inferInstanceAs (Decidable (Q s a ∧ _))

@[simp] theorem run_nil (s : σ) : run step s [] = some s := rfl

theorem run_cons_eq_some {s t : σ} {a : α} {as : List α} :
    run step s (a :: as) = some t ↔ ∃ u, step s a = some u ∧ run step u as = some t := by
  rw [run, Option.bind_eq_some_iff]

theorem run_append_eq_some {s t : σ} {as bs : List α} :
    run step s (as ++ bs) = some t ↔ ∃ u, run step s as = some u ∧ run step u bs = some t := by
  induction as generalizing s with
  | nil => simp
  | cons a as ih =>
    simp only [List.cons_append, run_cons_eq_some, ih]
    constructor
    · rintro ⟨u, hu, v, hv, ht⟩
      exact ⟨v, ⟨u, hu, hv⟩, ht⟩
    · rintro ⟨v, ⟨u, hu, hv⟩, ht⟩
      exact ⟨u, hu, v, hv, ht⟩

/-- Two runs, one after the other. -/
theorem run_trans {s t u : σ} {as bs : List α} (h₁ : run step s as = some t)
    (h₂ : run step t bs = some u) : run step s (as ++ bs) = some u :=
  run_append_eq_some.mpr ⟨t, h₁, h₂⟩

/-- The last step of a run. -/
theorem run_snoc {s t u : σ} {as : List α} {a : α} (h₁ : run step s as = some t)
    (h₂ : step t a = some u) : run step s (as ++ [a]) = some u :=
  run_trans h₁ (run_cons_eq_some.mpr ⟨u, h₂, rfl⟩)

/-- The condition is met by the last step of a run. -/
theorem Meets.last {Q : σ → α → Prop} {s t : σ} {as : List α} {a : α}
    (h : Meets step Q s (as ++ [a])) (hrun : run step s as = some t) : Q t a := by
  induction as generalizing s with
  | nil => exact Option.some.inj hrun ▸ h.1
  | cons b bs ih =>
    obtain ⟨u, hu, ht⟩ := run_cons_eq_some.mp hrun
    exact ih (h.2 u hu) ht

/-- **Invariant rule**: what one step preserves, a run preserves. -/
theorem run_inv {P : σ → Prop} (hstep : ∀ s a t, P s → step s a = some t → P t) :
    ∀ {as : List α} {s t : σ}, P s → run step s as = some t → P t := by
  intro as
  induction as with
  | nil =>
    intro s t hs h
    rw [run_nil, Option.some.injEq] at h
    exact h ▸ hs
  | cons a as ih =>
    intro s t hs h
    obtain ⟨u, hu, ht⟩ := run_cons_eq_some.mp h
    exact ih (hstep s a u hs hu) ht

/-- **Log rule**: what the steps add to a log, in states that satisfy the invariant `I`, a run adds
to it, in this order. -/
theorem run_log {β : Type*} {I : σ → Prop} {log : σ → List β} {entries : α → List β}
    (hI : ∀ s a t, I s → step s a = some t → I t)
    (hstep : ∀ s a t, I s → step s a = some t → log t = log s ++ entries a) :
    ∀ {as : List α} {s t : σ}, I s → run step s as = some t →
      log t = log s ++ as.flatMap entries := by
  intro as
  induction as with
  | nil =>
    intro s t _ h
    rw [run_nil, Option.some.injEq] at h
    rw [h, List.flatMap_nil, List.append_nil]
  | cons a as ih =>
    intro s t hs h
    obtain ⟨u, hu, ht⟩ := run_cons_eq_some.mp h
    rw [ih (hI s a u hs hu) ht, hstep s a u hs hu, List.flatMap_cons, List.append_assoc]

/-- The invariant rule for runs whose steps all meet a condition. -/
theorem run_inv_of_meets {P : σ → Prop} {Q : σ → α → Prop}
    (hstep : ∀ s a t, P s → Q s a → step s a = some t → P t) :
    ∀ {as : List α} {s t : σ}, P s → Meets step Q s as → run step s as = some t → P t := by
  intro as
  induction as with
  | nil =>
    intro s t hs _ h
    rw [run_nil, Option.some.injEq] at h
    exact h ▸ hs
  | cons a as ih =>
    intro s t hs hq h
    obtain ⟨u, hu, ht⟩ := run_cons_eq_some.mp h
    exact ih (hstep s a u hs hq.1 hu) (hq.2 u hu) ht

/-- The invariant rule where the invariant, which may speak of the actions so far, also makes every
step possible: such a run gets to its end. -/
theorem exists_run_of_meets {P : List α → σ → Prop} {Q : σ → α → Prop}
    (hstep : ∀ past s a, P past s → Q s a → ∃ t, step s a = some t ∧ P (a :: past) t) :
    ∀ {as past : List α} {s : σ}, P past s → Meets step Q s as →
      ∃ t, run step s as = some t ∧ P (as.reverse ++ past) t := by
  intro as
  induction as with
  | nil => exact fun {_ s} hs _ => ⟨s, rfl, hs⟩
  | cons a as ih =>
    intro past s hs hq
    obtain ⟨u, hu, hPu⟩ := hstep past s a hs hq.1
    obtain ⟨t, ht, hPt⟩ := ih hPu (hq.2 u hu)
    refine ⟨t, run_cons_eq_some.mpr ⟨u, hu, ht⟩, ?_⟩
    rw [List.reverse_cons, List.append_assoc]
    exact hPt

/-- A condition on the actions alone is met by a run as soon as every action meets it. -/
theorem meets_of_forall {Q : σ → α → Prop} {as : List α} (h : ∀ a ∈ as, ∀ s, Q s a) (s : σ) :
    Meets step Q s as := by
  induction as generalizing s with
  | nil => trivial
  | cons a as ih =>
    exact ⟨h a List.mem_cons_self s, fun t _ => ih (fun b hb => h b (List.mem_cons_of_mem _ hb)) t⟩

/-- ... and only then, if the run is possible. -/
theorem meets_iff_forall {Q : α → Prop} {as : List α} {s t : σ} (h : run step s as = some t) :
    Meets step (fun _ => Q) s as ↔ ∀ a ∈ as, Q a := by
  refine ⟨?_, fun hall => meets_of_forall (fun a ha _ => hall a ha) s⟩
  induction as generalizing s with
  | nil => exact fun _ a ha => absurd ha List.not_mem_nil
  | cons b as ih =>
    obtain ⟨u, hu, ht⟩ := run_cons_eq_some.mp h
    intro hmeets a ha
    rcases List.mem_cons.mp ha with rfl | ha
    · exact hmeets.1
    · exact ih ht (hmeets.2 u hu) a ha

/-- Conditions that come to the same in states that satisfy the invariant `I` come to the same for
runs. -/
theorem meets_iff_meets {I : σ → Prop} {Q R : σ → α → Prop}
    (hI : ∀ s a t, I s → step s a = some t → I t)
    (hstep : ∀ s a t, I s → step s a = some t → (Q s a ↔ R s a)) :
    ∀ {as : List α} {s t : σ}, I s → run step s as = some t →
      (Meets step Q s as ↔ Meets step R s as) := by
  intro as
  induction as with
  | nil => exact fun _ _ => Iff.rfl
  | cons a as ih =>
    intro s t hs h
    obtain ⟨u, hu, ht⟩ := run_cons_eq_some.mp h
    refine and_congr (hstep s a u hs hu) (forall_congr' fun v => imp_congr_right fun hv => ?_)
    rw [Option.some.inj (hv.symm.trans hu)]
    exact ih (hI s a u hs hu) ht

/-- A condition that is met as long as another one is, which keeps the invariant `I`. -/
theorem meets_of_meets {I : σ → Prop} {Q R : σ → α → Prop}
    (hstep : ∀ s a t, I s → Q s a → step s a = some t → R s a ∧ I t) :
    ∀ {as : List α} {s t : σ}, I s → run step s as = some t → Meets step Q s as →
      Meets step R s as := by
  intro as
  induction as with
  | nil => exact fun _ _ _ => trivial
  | cons a as ih =>
    intro s t hs h hq
    obtain ⟨u, hu, ht⟩ := run_cons_eq_some.mp h
    obtain ⟨hr, hIu⟩ := hstep s a u hs hq.1 hu
    refine ⟨hr, fun v hv => ?_⟩
    rw [Option.some.inj (hv.symm.trans hu)]
    exact ih hIu ht (hq.2 u hu)

/-- **Exactness rule**: if, in states satisfying the invariant `I` and the property `P`, a step
keeps `P` exactly when it meets `Q`, then a run satisfies `P` throughout exactly when all of its
steps meet `Q`. -/
theorem throughout_iff_meets {I P : σ → Prop} {Q : σ → α → Prop}
    (hI : ∀ s a t, I s → step s a = some t → I t)
    (hstep : ∀ s a t, I s → P s → step s a = some t → (P t ↔ Q s a)) :
    ∀ {as : List α} {s t : σ}, I s → P s → run step s as = some t →
      (Throughout step P s as ↔ Meets step Q s as) := by
  intro as
  induction as with
  | nil => exact fun _ hP _ => ⟨fun _ => trivial, fun _ => hP⟩
  | cons a as ih =>
    intro s t hs hP h
    obtain ⟨u, hu, ht⟩ := run_cons_eq_some.mp h
    have huniq : ∀ v, step s a = some v → v = u := fun v hv => Option.some.inj (hv.symm.trans hu)
    constructor
    · rintro ⟨_, hall⟩
      have hPu : P u := by
        have := hall u hu
        cases as with
        | nil => exact this
        | cons b bs => exact this.1
      refine ⟨(hstep s a u hs hP hu).mp hPu, fun v hv => ?_⟩
      rw [huniq v hv]
      exact (ih (hI s a u hs hu) hPu ht).mp (hall u hu)
    · rintro ⟨hq, hall⟩
      have hPu : P u := (hstep s a u hs hP hu).mpr hq
      refine ⟨hP, fun v hv => ?_⟩
      rw [huniq v hv]
      exact (ih (hI s a u hs hu) hPu ht).mpr (hall u hu)

/-- The exactness rule for what is only ever added to, as records are: `P` holds of the end of a run
exactly when it holds of its beginning and every step meets `Q`. -/
theorem run_iff_meets {I P : σ → Prop} {Q : σ → α → Prop}
    (hI : ∀ s a t, I s → step s a = some t → I t)
    (hstep : ∀ s a t, I s → step s a = some t → (P t ↔ P s ∧ Q s a)) :
    ∀ {as : List α} {s t : σ}, I s → run step s as = some t →
      (P t ↔ P s ∧ Meets step Q s as) := by
  intro as
  induction as with
  | nil =>
    intro s t _ h
    rw [run_nil, Option.some.injEq] at h
    rw [h]
    exact (and_iff_left trivial).symm
  | cons a as ih =>
    intro s t hs h
    obtain ⟨u, hu, ht⟩ := run_cons_eq_some.mp h
    have huniq : ∀ v, step s a = some v → v = u := fun v hv => Option.some.inj (hv.symm.trans hu)
    rw [ih (hI s a u hs hu) ht, hstep s a u hs hu, and_assoc]
    refine and_congr_right fun _ => and_congr_right fun _ => ?_
    constructor
    · intro hmeets v hv
      rw [huniq v hv]
      exact hmeets
    · intro hall
      exact hall u hu

/-! ### Scripts -/

section Script

variable (p : α → Bool) [DecidableEq α]

/-- Some of the actions, those that `p` picks out, happen in the order of a script, and only as far
as it goes; it is part of the state how much of it is left. -/
def follow (step : σ → α → Option σ) : σ × List α → α → Option (σ × List α)
  | (s, script), a =>
    if p a then
      match script with
      | [] => none
      | b :: rest => if a = b then (step s a).map fun t => (t, rest) else none
    else (step s a).map fun t => (t, script)

/-- A step that follows a script is a step, and one of the script if `p` picks it out. -/
theorem follow_eq_some {s t : σ} {a : α} {script rest : List α} :
    follow p step (s, script) a = some (t, rest) ↔
      step s a = some t ∧ if p a then script = a :: rest else rest = script := by
  unfold follow
  dsimp only
  by_cases hp : p a = true
  · rw [if_pos hp, if_pos hp]
    cases script with
    | nil => simp
    | cons b bs =>
      by_cases hab : a = b
      · subst hab
        simp only [if_true, Option.map_eq_some_iff, Prod.mk.injEq, List.cons.injEq, true_and]
        exact ⟨fun ⟨u, hu, ht, hrest⟩ => ⟨ht ▸ hu, hrest⟩, fun ⟨hu, hrest⟩ => ⟨t, hu, rfl, hrest⟩⟩
      · simp [hab, Ne.symm hab]
  · rw [if_neg hp, if_neg hp]
    simp only [Option.map_eq_some_iff, Prod.mk.injEq]
    exact ⟨fun ⟨u, hu, ht, hrest⟩ => ⟨ht ▸ hu, hrest.symm⟩,
      fun ⟨hu, hrest⟩ => ⟨t, hu, rfl, hrest.symm⟩⟩

end Script

/-! ### Histories -/

section History

variable {β : Type*} (note : σ → α → β → β)

/-- What has happened so far is noted beside the state. -/
def noting (step : σ → α → Option σ) : σ × β → α → Option (σ × β)
  | (s, b), a => (step s a).map fun t => (t, note s a b)

theorem noting_eq_some {s t : σ} {a : α} {b c : β} :
    noting note step (s, b) a = some (t, c) ↔ step s a = some t ∧ c = note s a b := by
  simp only [noting, Option.map_eq_some_iff, Prod.mk.injEq]
  constructor
  · rintro ⟨u, hu, rfl, rfl⟩
    exact ⟨hu, rfl⟩
  · rintro ⟨ht, rfl⟩
    exact ⟨t, ht, rfl, rfl⟩

/-- A run is one, also if what happens is not noted. -/
theorem run_of_noting {as : List α} {s t : σ} {b c : β}
    (h : run (noting note step) (s, b) as = some (t, c)) : run step s as = some t := by
  induction as generalizing s b with
  | nil => exact congrArg (Option.map Prod.fst) h
  | cons a as ih =>
    obtain ⟨⟨u, d⟩, hu, ht⟩ := run_cons_eq_some.mp h
    exact run_cons_eq_some.mpr ⟨u, ((noting_eq_some note).mp hu).1, ih ht⟩

/-- **Invariant rule for histories**: a relation between states and what is noted that every step
preserves. -/
theorem noting_inv {P : σ → β → Prop}
    (hstep : ∀ s a t b, P s b → step s a = some t → P t (note s a b)) {as : List α} {s t : σ}
    {b c : β} (hs : P s b) (hrun : run (noting note step) (s, b) as = some (t, c)) : P t c := by
  refine run_inv (P := fun x : σ × β => P x.1 x.2) ?_ (s := (s, b)) (t := (t, c)) hs hrun
  rintro ⟨s, b⟩ a ⟨t, c⟩ hs ht
  obtain ⟨hu, rfl⟩ := (noting_eq_some note).mp ht
  exact hstep s a t b hs hu

end History

/-! ### What can happen -/

section Leads

variable {σ α : Type*} {step : σ → α → Option σ} {own : α → Bool} {s t u : σ} {a : α}

/-- `t` can be reached from `s` by actions of one kind. -/
def Leads (step : σ → α → Option σ) (own : α → Bool) (s t : σ) : Prop :=
  ∃ as, (∀ a ∈ as, own a = true) ∧ run step s as = some t

theorem Leads.refl (s : σ) : Leads step own s s := ⟨[], by simp, rfl⟩

theorem Leads.trans (h₁ : Leads step own s t) (h₂ : Leads step own t u) : Leads step own s u := by
  obtain ⟨as, has, hs⟩ := h₁
  obtain ⟨bs, hbs, ht⟩ := h₂
  refine ⟨as ++ bs, ?_, run_trans hs ht⟩
  intro b hb
  exact (List.mem_append.mp hb).elim (has b) (hbs b)

theorem Leads.of_step (hown : own a = true) (hs : step s a = some t) : Leads step own s t :=
  ⟨[a], by simpa using hown, run_cons_eq_some.mpr ⟨t, hs, rfl⟩⟩

/-- **Invariant rule**: what every such action preserves. -/
theorem Leads.inv {P : σ → Prop}
    (hstep : ∀ s a t, own a = true → P s → step s a = some t → P t) (h : Leads step own s t)
    (hs : P s) : P t := by
  obtain ⟨as, has, hrun⟩ := h
  induction as generalizing s with
  | nil =>
    rw [← Option.some.inj hrun]
    exact hs
  | cons a as ih =>
    obtain ⟨u, hu, ht⟩ := run_cons_eq_some.mp hrun
    obtain ⟨ha, has⟩ := List.forall_mem_cons.mp has
    exact ih (hstep s a u ha hs hu) has ht

end Leads

end AnyHttp.Lib
