import Mathlib.Data.List.Basic

/-!
# Logs whose entries depend on what came before

A log grows at its end.  It is guarded when each of its entries was allowed after the entries that
precede it, so that a property of the order of entries is kept by looking at what is added.
-/

namespace Steveo

variable {α : Type*}

/-- Every entry of a log is allowed after the entries before it. -/
def Guarded (allowed : List α → α → Prop) (log : List α) : Prop :=
  ∀ earlier entry later, log = earlier ++ entry :: later → allowed earlier entry

theorem guarded_nil (allowed : List α → α → Prop) : Guarded allowed [] := by
  intro earlier entry later split
  simp at split

/-- A log stays guarded if what is added to it is allowed after what was there. -/
theorem guarded_append {allowed : List α → α → Prop} {log added : List α} :
    Guarded allowed (log ++ added) ↔
      Guarded allowed log ∧ Guarded (fun earlier => allowed (log ++ earlier)) added := by
  constructor
  · intro guarded
    refine ⟨fun earlier entry later split => ?_, fun earlier entry later split => ?_⟩
    · exact guarded earlier entry (later ++ added) (by simp [split])
    · exact guarded (log ++ earlier) entry later (by simp [split])
  · rintro ⟨before, since⟩ earlier entry later split
    rcases List.append_eq_append_iff.mp split with ⟨more, rfl, rest⟩ | ⟨more, rfl, rest⟩
    · exact since more entry later rest
    · cases more with
      | nil => simpa using since [] entry later rest.symm
      | cons first more =>
          obtain ⟨rfl, -⟩ := List.cons.inj rest
          exact before earlier entry more rfl

@[simp] theorem guarded_cons {allowed : List α → α → Prop} {entry : α} {log : List α} :
    Guarded allowed (entry :: log) ↔
      allowed [] entry ∧ Guarded (fun earlier => allowed (entry :: earlier)) log := by
  rw [← List.singleton_append, guarded_append]
  refine and_congr ⟨fun guarded => guarded [] entry [] rfl, ?_⟩ Iff.rfl
  rintro permitted earlier other later split
  cases earlier with
  | nil =>
      obtain ⟨rfl, -⟩ := List.cons.inj split
      exact permitted
  | cons first earlier =>
      obtain ⟨-, rest⟩ := List.cons.inj split
      simp at rest

/-- A log is guarded if each of its entries is allowed after any of its entries. -/
theorem guarded_of_forall {allowed : List α → α → Prop} {log : List α}
    (permitted : ∀ earlier ⊆ log, ∀ entry ∈ log, allowed earlier entry) :
    Guarded allowed log := by
  rintro earlier entry later rfl
  exact permitted earlier (List.subset_append_left _ _) entry (by simp)

end Steveo
