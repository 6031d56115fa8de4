import OwnershipRegistry.Proofs.Accounts

/-!
Listings. A listing is in order and has everything once that is read one by one, and
nothing else: the sessions of a target by the octets of their identifiers, the entities in
the order of targets.
-/

namespace OwnershipRegistry

/-- Bots come before users, and targets of one kind go by the octets of their identifiers. -/
def Target.Before (t t' : Target) : Prop :=
  (t.kind = .bot ∧ t'.kind = .user) ∨
    (t.kind = t'.kind ∧ compare (octets t.id) (octets t'.id) = .lt)

theorem Target.compare_eq_lt_iff {t t' : Target} : compare t t' = .lt ↔ t.Before t' := by
  obtain ⟨k, id⟩ := t
  obtain ⟨k', id'⟩ := t'
  have hcompare : compare (Target.mk k id) ⟨k', id'⟩ =
      (compare k k').then (compare (octets id) (octets id')) := rfl
  have hkinds : compare Kind.bot Kind.user = .lt ∧ compare Kind.user Kind.bot = .gt :=
    ⟨rfl, rfl⟩
  rw [hcompare, Before]
  cases k <;> cases k' <;> simp [hkinds]

/-- The listings that are given agree with what is read one by one. -/
structure ListingsAgree (ask : Asking) : Prop where
  sessions : ∀ t l, ask (.listSessions t) = some (.ok (.sessions l)) →
    (l.Pairwise fun x y => compare (octets x.id.text) (octets y.id.text) = .lt) ∧
      ∀ x, x ∈ l ↔ ask (.getSession x.id) = some (.ok (.foundSession (some x))) ∧ x.target = t
  entities : ∀ l, ask .listEntities = some (.ok (.entities l)) →
    l.Pairwise Target.Before ∧ ∀ t, t ∈ l ↔ ask (.lookup t) = some (.ok (.found (some t)))

/-- All listings are given and agree with what is read one by one. -/
structure ListingsGiven (ask : Asking) : Prop extends ListingsAgree ask where
  sessionsGiven : ∀ t, ∃ l, ask (.listSessions t) = some (.ok (.sessions l))
  entitiesGiven : ∃ l, ask .listEntities = some (.ok (.entities l))

end OwnershipRegistry
