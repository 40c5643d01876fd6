import Mathlib.Data.List.Forall2
import MethodLint.Traced

/-! What computations that may fail come to. An analysis fails for one reason
only, a malformed node, and it does so wherever the node stands; `Guarded` says
of a computation exactly when that happens, and is closed under the ways in
which computations are put together. -/
namespace MethodLint.Outcomes

/-! ## Computations that stop exactly on a condition -/

/-- The computation gives an answer unless `bad` holds, and then it ends with a
malformed tree. -/
def Guarded {α : Type} (bad : Prop) (x : Except Fault α) : Prop :=
  (¬ bad ∧ ∃ a, x = .ok a) ∨ (bad ∧ ∃ defect, x = .error (.tree defect))

variable {α β : Type} {bad worse : Prop} {x : Except Fault α}

theorem guarded_ok (a : α) : Guarded False (.ok a : Except Fault α) := .inl ⟨id, a, rfl⟩

theorem guarded_of_ok (never : ¬ bad) (a : α) : Guarded bad (.ok a : Except Fault α) :=
  .inl ⟨never, a, rfl⟩

theorem guarded_error (holds : bad) (defect : TreeDefect) :
    Guarded bad (.error (.tree defect) : Except Fault α) := .inr ⟨holds, defect, rfl⟩

theorem guarded_congr (same : bad ↔ worse) : Guarded bad x ↔ Guarded worse x := by
  simp [Guarded, same]

theorem guarded_map (f : α → β) (guarded : Guarded bad x) : Guarded bad (x.map f) := by
  rcases guarded with ⟨fine, a, rfl⟩ | ⟨holds, defect, rfl⟩
  · exact guarded_of_ok fine (f a)
  · exact guarded_error holds defect

/-- In a sequence it is enough that one of the two conditions holds. -/
theorem guarded_bind {f : α → Except Fault β} (first : Guarded bad x)
    (second : ∀ a, x = .ok a → Guarded worse (f a)) : Guarded (bad ∨ worse) (x >>= f) := by
  rcases first with ⟨fine, a, rfl⟩ | ⟨holds, defect, rfl⟩
  · rcases second a rfl with ⟨alsoFine, b, answered⟩ | ⟨holds, defect, ended⟩
    · exact .inl ⟨fun either => either.elim fine alsoFine, b, answered⟩
    · exact .inr ⟨.inr holds, defect, ended⟩
  · exact guarded_error (.inl holds) defect

/-- A fold stops exactly if some item makes it stop. -/
theorem guarded_foldlM {bad : α → Prop} {step : β → α → Except Fault β} (items : List α)
    (each : ∀ total, ∀ item ∈ items, Guarded (bad item) (step total item)) (start : β) :
    Guarded (∃ item ∈ items, bad item) (items.foldlM step start) := by
  induction items generalizing start with
  | nil => exact guarded_of_ok (by simp) start
  | cons item rest ih =>
    rw [List.foldlM_cons]
    refine (guarded_congr (by simp)).mp (guarded_bind (each start item (by simp)) fun total _ =>
      ih (fun total item member => each total item (by simp [member])) total)

/-- So does a computation that is done for every item. -/
theorem guarded_mapM {bad : α → Prop} {f : α → Except Fault β} (items : List α)
    (each : ∀ item ∈ items, Guarded (bad item) (f item)) :
    Guarded (∃ item ∈ items, bad item) (items.mapM f) := by
  induction items with
  | nil => exact guarded_of_ok (by simp) []
  | cons item rest ih =>
    rw [List.mapM_cons]
    have later := ih fun item member => each item (by simp [member])
    have whole := guarded_bind (each item (by simp)) fun b _ =>
      guarded_bind later fun bs _ => guarded_ok (b :: bs)
    exact (guarded_congr (by simp)).mp whole

/-! ## What an answer and what a fault may be -/

/-- The computation ends with a good answer or with a fault of some sort. -/
inductive Ends {α : Type} (good : α → Prop) (sort : Fault → Prop) : Except Fault α → Prop where
  | ok (holds : good a) : Ends good sort (.ok a)
  | error (sorted : sort e) : Ends good sort (.error e)

variable {good : α → Prop} {better : β → Prop} {sort wider : Fault → Prop}

theorem ends_weaken (ends : Ends good sort x) (wide : ∀ e, sort e → wider e) : Ends good wider x := by
  cases ends with
  | ok holds => exact .ok holds
  | error sorted => exact .error (wide _ sorted)

theorem ends_guarded (guarded : Guarded bad x) :
    Ends (fun _ => True) (fun e => ∃ defect, e = .tree defect) x := by
  rcases guarded with ⟨_, a, rfl⟩ | ⟨_, defect, rfl⟩
  · exact .ok trivial
  · exact .error ⟨defect, rfl⟩

/-- The faults of a sequence are those of its steps. -/
theorem ends_bind {f : α → Except Fault β} (first : Ends good sort x)
    (second : ∀ a, good a → Ends better sort (f a)) : Ends better sort (x >>= f) := by
  cases first with
  | ok holds => exact second _ holds
  | error sorted => exact .error sorted

theorem ends_mapM {f : α → Except Fault β} (items : List α)
    (each : ∀ item ∈ items, Ends better sort (f item)) :
    Ends (fun answers => ∀ b ∈ answers, better b) sort (items.mapM f) := by
  induction items with
  | nil => exact .ok fun b member => absurd member List.not_mem_nil
  | cons item rest ih =>
    rw [List.mapM_cons]
    refine ends_bind (each item (by simp)) fun b first => ?_
    refine ends_bind (ih fun item member => each item (by simp [member])) fun bs later => ?_
    exact .ok (List.forall_mem_cons.mpr ⟨first, later⟩)

/-! ## Answers item by item -/

theorem bind_ok_iff {ε : Type} {x : Except ε α} {f : α → Except ε β} {b : β} :
    (x >>= f) = .ok b ↔ ∃ a, x = .ok a ∧ f a = .ok b := by
  cases x <;> simp [bind, Except.bind]

/-- The answers to some items stand in the order of the items, one for each. -/
theorem mapM_ok_forall {f : α → Except Fault β} {items : List α} {answers : List β}
    (ran : items.mapM f = .ok answers) :
    List.Forall₂ (fun item answer => f item = .ok answer) items answers := by
  induction items generalizing answers with
  | nil =>
    cases ran
    exact .nil
  | cons item rest ih =>
    rw [List.mapM_cons] at ran
    obtain ⟨answer, first, ran⟩ := bind_ok_iff.mp ran
    obtain ⟨others, later, ran⟩ := bind_ok_iff.mp ran
    cases ran
    exact .cons first (ih later)

theorem mapM_ok_iff {f : α → Except Fault β} {items : List α} {answers : List β} :
    items.mapM f = .ok answers ↔ List.Forall₂ (fun item answer => f item = .ok answer) items answers := by
  refine ⟨mapM_ok_forall, fun each => ?_⟩
  induction each with
  | nil => rfl
  | cons first _ later =>
    rw [List.mapM_cons, first, later]
    rfl

theorem answer_of_mem {R : α → β → Prop} {items : List α} {answers : List β} {item : α}
    (each : List.Forall₂ R items answers) (member : item ∈ items) : ∃ answer ∈ answers, R item answer := by
  induction each with
  | nil => exact absurd member List.not_mem_nil
  | cons here _ ih =>
    rcases List.mem_cons.mp member with rfl | later
    · exact ⟨_, List.mem_cons_self, here⟩
    · obtain ⟨answer, listed, there⟩ := ih later
      exact ⟨answer, List.mem_cons_of_mem _ listed, there⟩

theorem item_of_mem {R : α → β → Prop} {items : List α} {answers : List β} {answer : β}
    (each : List.Forall₂ R items answers) (member : answer ∈ answers) : ∃ item ∈ items, R item answer :=
  answer_of_mem (R := flip R) each.flip member

/-- If every item has an answer, all of them have their answers in their order. -/
theorem mapM_total {f : α → Except Fault β} {P : α → β → Prop} {items : List α}
    (each : ∀ item ∈ items, ∃ answer, f item = .ok answer ∧ P item answer) :
    ∃ answers, items.mapM f = .ok answers ∧ List.Forall₂ P items answers := by
  induction items with
  | nil => exact ⟨[], rfl, .nil⟩
  | cons item rest ih =>
    obtain ⟨answer, first, holds⟩ := each item (by simp)
    obtain ⟨others, later, hold⟩ := ih fun other member => each other (by simp [member])
    exact ⟨answer :: others, by rw [List.mapM_cons, first, later]; rfl, .cons holds hold⟩

theorem mapM_congr {f g : α → Except Fault β} {items : List α}
    (same : ∀ item ∈ items, f item = g item) : items.mapM f = items.mapM g := by
  induction items with
  | nil => rfl
  | cons item rest ih =>
    rw [List.mapM_cons, List.mapM_cons, same item (by simp),
      ih fun other member => same other (by simp [member])]

/-- Some items with one among them are answered part by part. -/
theorem mapM_ok_split {f : α → Except Fault β} {before after : List α} {item : α} {answers : List β}
    (ran : (before ++ item :: after).mapM f = .ok answers) :
    ∃ first answer last, before.mapM f = .ok first ∧ f item = .ok answer ∧ after.mapM f = .ok last ∧
      answers = first ++ answer :: last := by
  rw [List.mapM_append] at ran
  obtain ⟨first, left, ran⟩ := bind_ok_iff.mp ran
  obtain ⟨others, right, ran⟩ := bind_ok_iff.mp ran
  cases ran
  rw [List.mapM_cons] at right
  obtain ⟨answer, here, right⟩ := bind_ok_iff.mp right
  obtain ⟨last, later, right⟩ := bind_ok_iff.mp right
  cases right
  exact ⟨first, answer, last, left, here, later, rfl⟩

/-- The answers to some items with one among them are those to the others, and the
answer to the one between them. -/
theorem mapM_ok_around {f : α → Except Fault β} {before after : List α} {item : α} {answers : List β}
    (ran : (before ++ item :: after).mapM f = .ok answers) :
    ∃ first answer last, f item = .ok answer ∧ answers = first ++ answer :: last ∧
      (before ++ after).mapM f = .ok (first ++ last) := by
  obtain ⟨first, answer, last, left, here, later, rfl⟩ := mapM_ok_split ran
  refine ⟨first, answer, last, here, rfl, ?_⟩
  rw [List.mapM_append, left, later]
  rfl

/-! ## Computations with a log -/

instance : LawfulMonad Traced :=
  LawfulMonad.mk' Traced
    (fun ⟨_, outcome⟩ => by cases outcome <;> simp [Functor.map])
    (fun _ _ => by simp [bind, pure])
    (fun ⟨_, outcome⟩ f _ => by
      cases outcome with
      | error e => rfl
      | ok a => cases made : (f a).outcome <;> simp [bind, made])

theorem outcome_map (f : α → β) (x : Traced α) : (f <$> x).outcome = x.outcome.map f := by
  obtain ⟨_, outcome⟩ := x
  cases outcome <;> rfl

/-- What is taken of the answers to some items may be taken of each answer at once. -/
theorem map_mapM {γ : Type} (g : β → γ) (f : α → Traced β) (items : List α) :
    List.map g <$> items.mapM f = items.mapM fun item => g <$> f item := by
  induction items with
  | nil => rfl
  | cons item rest ih => simp only [List.mapM_cons, ← ih, map_bind, bind_map_left, map_pure, List.map_cons]

/-- The log of a computation that is done for every item does not matter for
its answers. -/
theorem outcome_mapM (f : α → Traced β) (items : List α) :
    (items.mapM f).outcome = items.mapM fun item => (f item).outcome := by
  induction items with
  | nil => rfl
  | cons item rest ih => simp only [List.mapM_cons, Traced.outcome_bind, ih, Traced.outcome_pure]; rfl

end MethodLint.Outcomes
