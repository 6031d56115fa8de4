import OwnershipRegistry.Proofs.Journal
import OwnershipRegistry.Proofs.Time.Strict

/-!
Accounts of a registry. A registry that answers calls keeps a census, if every
call turns the census as its answer says and every question is answered by it.
Then its journal alone accounts for everything in it: lives alternate, and each
answer, at whatever moment it is asked for, is the one that the journal up to
that moment calls for.
-/

namespace OwnershipRegistry

/-- What a registry can be asked: the answers to all calls at a moment. -/
abbrev Asking := Operation → Option (Except RegistryError Answer)

/-- The answers to calls where `entity` and `owner` tell what there is; `dated`
says that all sessions were made in the era. -/
structure Told (entity : Target → Option Target) (owner : SessionId → Option Target)
    (dated : Prop) (ask : Asking) : Prop where
  lookup : ∀ t, ask (.lookup t) = some (.ok (.found (entity t)))
  absent : ∀ id, ask (.getSession id) = some (.ok (.foundSession none)) ↔ owner id = none
  found : dated → ∀ id, ∃ x, ask (.getSession id) = some (.ok (.foundSession x)) ∧
    x.map Session.target = owner id
  /-- A registration is refused as a duplicate where the entity is there. -/
  duplicate : ∀ t, ask (.register t) = some (.error (.duplicateEntity t)) ↔ entity t ≠ none
  /-- It is made where the entity is not there and its backing record is. -/
  registers : ∀ t, entity t = none → ask (.backingExists t) = some (.ok (.flag true)) →
    ask (.register t) = some (.ok (.entity t))
  /-- A session is made if and only if its owner is there and its identifier is
  nobody's. -/
  creates : ∀ new, (∃ x, ask (.createSession new) = some (.ok (.session x))) ↔
    entity new.target ≠ none ∧ owner new.id = none
  unregistered : ∀ new, entity new.target = none → owner new.id = none →
    ask (.createSession new) = some (.error (.unknownEntity new.target))
  deletes : ∀ id, ask (.deleteSession id) = some (.ok .done) ↔ owner id ≠ none
  /-- A report names the sessions of its target, each once, and tells whether its
  entity was there. -/
  reports : ∀ t r, ask (.deleteBacking t) = some (.ok (.report r)) ∨
      ask (.backingDeleted t) = some (.ok (.report r)) →
    r.target = t ∧ (r.entityRemoved = true ↔ entity t ≠ none) ∧ r.sessionsRemoved.Nodup ∧
      ∀ id, id ∈ r.sessionsRemoved ↔ owner id = some t
  /-- The count of an emptying is that of the sessions of its target. -/
  empties : ∀ t n, ask (.deleteAllSessions t) = some (.ok (.count n)) →
    ∃ ids : List SessionId, ids.length = n ∧ ids.Nodup ∧ ∀ id, id ∈ ids ↔ owner id = some t

/-- The answers that a journal calls for. -/
def ToldBy (log : List Entry) : Asking → Prop :=
  Told (fun t => owner? (entityMarks t log)) (fun id => owner? (sessionMarks id log))
    (∀ e ∈ log, e.now.InEra)

/-- The answers that a census calls for. -/
def Census.Tells (c : Census) : Asking → Prop :=
  Told c.entity? c.owner? (∀ x ∈ c.sessions.rows, x.createdAt.InEra)

/-- Something that answers calls. -/
structure Registry (σ : Type) where
  start : σ → Prop
  /-- What may happen between calls. -/
  idle : σ → σ → Prop
  call : σ → Entry → σ → Prop
  /-- What it can be asked, at each way in and each instant. -/
  asked : σ → Asking → Prop

/-- What comes of a registry, with the journal of its calls, latest first. -/
inductive Logged {σ : Type} (R : Registry σ) : List Entry → σ → Prop
  | start {s : σ} (starts : R.start s) : Logged R [] s
  | idle {log : List Entry} {s s' : σ} (logged : Logged R log s) (idles : R.idle s s') :
      Logged R log s'
  | call {log : List Entry} {s s' : σ} {e : Entry} (logged : Logged R log s)
      (calls : R.call s e s') : Logged R (e :: log) s'

/-- A journal accounts for a registry: lives alternate, every answer is one that
the journal calls for, and so was every answer in the journal when it was
given. -/
structure Accounted {σ : Type} (R : Registry σ) (log : List Entry) (s : σ) : Prop where
  entities : ∀ t, Alternate (entityMarks t log)
  sessions : ∀ id, Alternate (sessionMarks id log)
  told : ∀ ask, R.asked s ask → ToldBy log ask
  answered : ∀ later e earlier, log = later ++ e :: earlier →
    ∃ ask, ToldBy earlier ask ∧ ask e.call = some e.answer

/-- A registry keeps a census: `Shows` tells which census is that of which
state. -/
structure Registry.Keeps {σ : Type} (R : Registry σ) (Shows : Census → σ → Prop) : Prop where
  start : ∀ s, R.start s → Shows {} s
  idle : ∀ c s s', Shows c s → R.idle s s' → Shows c s'
  call : ∀ c s e s', Shows c s → R.call s e s' →
    (∃ c', c.Step e.now e.deed c' ∧ Shows c' s') ∧ ∃ ask, R.asked s ask ∧ ask e.call = some e.answer
  told : ∀ c s ask, Shows c s → R.asked s ask → c.Tells ask

/-- A journal and a census that tell the same. -/
structure Tallies (log : List Entry) (c : Census) : Prop where
  entities : ∀ t, Alternate (entityMarks t log) ∧ owner? (entityMarks t log) = c.entity? t
  sessions : ∀ id, Alternate (sessionMarks id log) ∧ owner? (sessionMarks id log) = c.owner? id
  dated : (∀ e ∈ log, e.now.InEra) → ∀ x ∈ c.sessions.rows, x.createdAt.InEra

variable {σ : Type} {R : Registry σ} {Shows : Census → σ → Prop} {log : List Entry} {s : σ}
  {c c' : Census} {e : Entry} {ask : Asking}

theorem Tallies.nil : Tallies [] {} where
  entities _ := ⟨trivial, rfl⟩
  sessions _ := ⟨trivial, rfl⟩
  dated _ x hx := by cases hx

/-- A call turns the journal as it turns the census. -/
theorem Tallies.cons (h : Tallies log c) (hstep : c.Step e.now e.deed c') :
    Tallies (e :: log) c' where
  entities t := (hstep.entity t).alternate (h.entities t)
  sessions id := by
    rw [sessionMarks, (h.sessions id).2]
    exact (hstep.session id).alternate (h.sessions id)
  dated hera x hx := by
    rcases hstep.mem_sessions hx with hold | hnow
    · exact h.dated (fun e' he' => hera e' (List.mem_cons_of_mem e he')) x hold
    · rw [hnow]
      exact hera e List.mem_cons_self

theorem Tallies.told (h : Tallies log c) (hc : c.Tells ask) : ToldBy log ask := by
  have hentity : (fun t => owner? (entityMarks t log)) = c.entity? := by
    funext t
    exact (h.entities t).2
  have howner : (fun id => owner? (sessionMarks id log)) = c.owner? := by
    funext id
    exact (h.sessions id).2
  rw [ToldBy, hentity, howner]
  exact { hc with found := fun hera => hc.found (h.dated hera) }

/-- The journal of a registry that keeps a census never parts from it. -/
theorem Logged.tallies (hR : R.Keeps Shows) (h : Logged R log s) :
    ∃ c, Tallies log c ∧ Shows c s := by
  induction h with
  | start starts => exact ⟨{}, .nil, hR.start _ starts⟩
  | idle logged idles ih =>
      obtain ⟨c, hc, hshows⟩ := ih
      exact ⟨c, hc, hR.idle c _ _ hshows idles⟩
  | call logged calls ih =>
      obtain ⟨c, hc, hshows⟩ := ih
      obtain ⟨⟨c', hstep, hshows'⟩, -⟩ := hR.call c _ _ _ hshows calls
      exact ⟨c', hc.cons hstep, hshows'⟩

theorem Logged.answered (hR : R.Keeps Shows) (h : Logged R log s) :
    ∀ later e earlier, log = later ++ e :: earlier →
      ∃ ask, ToldBy earlier ask ∧ ask e.call = some e.answer := by
  induction h with
  | start starts =>
      intro later e earlier heq
      simp at heq
  | idle logged idles ih => exact ih
  | call logged calls ih =>
      intro later e earlier heq
      cases later with
      | nil =>
          obtain ⟨rfl, rfl⟩ := List.cons.inj heq
          obtain ⟨c, hc, hshows⟩ := logged.tallies hR
          obtain ⟨-, ask, hask, hanswer⟩ := hR.call c _ _ _ hshows calls
          exact ⟨ask, hc.told (hR.told c _ ask hshows hask), hanswer⟩
      | cons first later => exact ih later e earlier (List.cons.inj heq).2

/-- A registry that keeps a census is accounted for by its journal. -/
theorem Logged.accounted (hR : R.Keeps Shows) (h : Logged R log s) : Accounted R log s := by
  obtain ⟨c, hc, hshows⟩ := h.tallies hR
  exact ⟨fun t => (hc.entities t).1, fun id => (hc.sessions id).1,
    fun ask hask => hc.told (hR.told c s ask hshows hask), h.answered hR⟩

end OwnershipRegistry
