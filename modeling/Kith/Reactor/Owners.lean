import Kith.Reactor.FdTable

/-!
# Registrations and the slots they call

A component keeps its connections in slots and registers each open descriptor
with a handler that names the slot. The bookkeeping that every such component
needs: a registration that names a slot is for the slot's open descriptor, and
no two slots have the same one.
-/

namespace Kith.Reactor

open Function

variable {H : Type} {tag : Nat → H} {entry : Int → Option (FdEntry H)} {fdOf : Nat → Option Int}

/-- `tag` is the handler of a slot and `fdOf` its open descriptor, if any. -/
structure Owned (tag : Nat → H) (entry : Int → Option (FdEntry H)) (fdOf : Nat → Option Int) :
    Prop where
  entries : ∀ fd e i, entry fd = some e → e.handler = some (tag i) → fdOf i = some fd
  distinct : ∀ i j fd, fdOf i = some fd → fdOf j = some fd → i = j

theorem Owned.start (foreign : ∀ fd e i, entry fd = some e → e.handler ≠ some (tag i)) :
    Owned tag entry fun _ => none where
  entries fd e i found handler := absurd handler (foreign fd e i found)
  distinct i j fd found := by cases found

section

variable (owned : Owned tag entry fdOf) {fd : Int}
include owned

theorem Owned.close {slot : Nat} (own : fdOf slot = some fd) :
    Owned tag (update entry fd none) (update fdOf slot none) where
  entries f e i found handler := by
    have hf : f ≠ fd := by
      rintro rfl
      rw [update_self] at found
      cases found
    rw [update_of_ne hf] at found
    have at_f := owned.entries f e i found handler
    have hi : i ≠ slot := by
      rintro rfl
      exact hf (Option.some.inj (at_f.symm.trans own))
    rw [update_of_ne hi]
    exact at_f
  distinct i j f hi hj := by
    rw [update_apply] at hi hj
    split at hi
    · cases hi
    · split at hj
      · cases hj
      · exact owned.distinct i j f hi hj

theorem Owned.assign {slot : Nat} (free : fdOf slot = none) (fresh : ∀ i, fdOf i ≠ some fd) :
    Owned tag entry (update fdOf slot (some fd)) where
  entries f e i found handler := by
    have at_f := owned.entries f e i found handler
    have hi : i ≠ slot := by
      rintro rfl
      rw [free] at at_f
      cases at_f
    rw [update_of_ne hi]
    exact at_f
  distinct i j f hi hj := by
    rw [update_apply] at hi hj
    split at hi <;> split at hj
    · rename_i h h'
      exact h.trans h'.symm
    · cases hi
      exact absurd hj (fresh j)
    · cases hj
      exact absurd hi (fresh i)
    · exact owned.distinct i j f hi hj

theorem Owned.write {e : FdEntry H} (named : ∀ i, e.handler = some (tag i) → fdOf i = some fd) :
    Owned tag (update entry fd (some e)) fdOf where
  entries f e' i found handler := by
    by_cases hf : f = fd
    · subst hf
      rw [update_self] at found
      cases found
      exact named i handler
    · rw [update_of_ne hf] at found
      exact owned.entries f e' i found handler
  distinct := owned.distinct

theorem Owned.apart {i slot : Nat} {fd' : Int} (own : fdOf slot = some fd)
    (other : fdOf i = some fd') (h : i ≠ slot) : fd' ≠ fd := by
  rintro rfl
  exact h (owned.distinct i slot fd' other own)

end

section Instances

/-- A reactor with room for four descriptors and one registration, for IN on
descriptor 3. -/
def listeningReactor (handler : H) : KithReactor H :=
  (kithReactorAdd (reactorAllocFdEntries 2 (by decide) ⟨fun _ => .ok, 0⟩) 3 reactorIn handler).2

theorem listeningReactor_spec (handler : H) : (listeningReactor handler).Valid ∧
    (listeningReactor handler).entry =
      update (fun _ => none) 3 (some ⟨3, reactorIn, some handler⟩) := by
  have spec := kithReactorAdd_spec
    (reactorAllocFdEntries_valid (by decide : 2 < 32) ⟨fun _ => .ok, 0⟩) 3 reactorIn handler
  refine ⟨spec.valid, ?_⟩
  rw [listeningReactor, (spec.stored rfl).2.2]
  congr 1
  funext fd
  exact reactorAllocFdEntries_entry _ _ fd

theorem listeningReactor_foreign {handler : H} (other : ∀ i, handler ≠ tag i) (fd : Int)
    (e : FdEntry H) (i : Nat) (found : (listeningReactor handler).entry fd = some e) :
    e.handler ≠ some (tag i) := by
  rw [(listeningReactor_spec handler).2, update_apply] at found
  split at found
  · cases found
    simpa using other i
  · cases found

end Instances

end Kith.Reactor
