import CertRotation.WebhookIdentity

namespace CertRotation

/-- At most one value for each identity, the one written last first. -/
structure IdentityMap (α : Type) where
  entries : List (WebhookIdentity × α)
deriving DecidableEq, Repr

namespace IdentityMap

variable {α : Type}

def empty : IdentityMap α := ⟨[]⟩

def get? (map : IdentityMap α) (id : WebhookIdentity) : Option α := map.entries.lookup id

/-- The map with another value for an identity. -/
def insert (map : IdentityMap α) (id : WebhookIdentity) (value : α) : IdentityMap α :=
  ⟨(id, value) :: map.entries.filter (·.1 != id)⟩

/-- The number of identities that have a value. -/
def size (map : IdentityMap α) : Nat := map.entries.length

@[simp] theorem get?_insert_self (map : IdentityMap α) (id : WebhookIdentity) (value : α) :
    (map.insert id value).get? id = some value := by
  simp [get?, insert]

theorem get?_insert_of_ne (map : IdentityMap α) {id other : WebhookIdentity} (value : α)
    (h : other ≠ id) : (map.insert id value).get? other = map.get? other := by
  have hlookup : ∀ entries : List (WebhookIdentity × α),
      (entries.filter (·.1 != id)).lookup other = entries.lookup other := by
    intro entries
    induction entries with
    | nil => rfl
    | cons entry rest ih =>
        rcases entry with ⟨key, held⟩
        by_cases hkey : key = id
        · subst key
          have hother : (other == id) = false := by simpa using h
          simp [ih, List.lookup_cons, hother]
        · simp [hkey, List.lookup_cons, ih]
  have hhead : (other == id) = false := by simpa using h
  rw [get?, insert, List.lookup_cons, hhead]
  exact hlookup map.entries

end IdentityMap

end CertRotation
