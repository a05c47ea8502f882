import CardBattle.Session.Basic

/-!
# Game documents

A store keeps one session per document, numbered from 1 in the order of creation. A change has two
sections, each under a lock of its own. In the first the document is changed. In the second its
observers are told of the session that resulted, so that they may look at the document again. The
store remembers what was told, in order.
-/

namespace CardBattle

/-- A session in a store, with the numbers of its observers in the order in which they came. -/
structure Document where
  session : Session
  observers : List Nat := []

/-- A change of a document that its observers have not been told of yet. -/
structure Announcement where
  document : SessionId
  session : Session

structure Notice extends Announcement where
  observer : Nat

/-- The documents in the order of their numbers, the number of observers so far, the changes between
their two sections, and everything that observers were told, oldest first. -/
structure DocumentStore where
  documents : List Document := []
  observerCount : Nat := 0
  pending : List Announcement := []
  notices : List Notice := []
  deriving Inhabited

namespace DocumentStore

def empty : DocumentStore := {}

def size (store : DocumentStore) : Nat :=
  store.documents.length

/-- The place of a document in the list; there is none for number 0. -/
def place? (id : SessionId) : Option Nat :=
  match id.number with
  | 0 => none
  | n + 1 => some n

/-- The document of a session, with its observers. -/
def document? (store : DocumentStore) (id : SessionId) : Option Document :=
  (place? id).bind fun i => store.documents[i]?

def find? (store : DocumentStore) (id : SessionId) : Option Session :=
  (store.document? id).map (·.session)

/-- Adds a document; the answer is its number. -/
def create (store : DocumentStore) (session : Session) : SessionId × DocumentStore :=
  (⟨store.documents.length + 1⟩, { store with documents := store.documents ++ [{ session }] })

def put (store : DocumentStore) (id : SessionId) (document : Document) : DocumentStore :=
  match place? id with
  | none => store
  | some i => { store with documents := store.documents.set i document }

def observers (store : DocumentStore) (id : SessionId) : List Nat :=
  ((store.document? id).map (·.observers)).getD []

/-- The first section of a change. -/
def commit (store : DocumentStore) (id : SessionId) (f : Session → Session) : DocumentStore :=
  match store.document? id with
  | none => store
  | some d =>
    let session := f d.session
    { store.put id { d with session } with pending := store.pending ++ [⟨id, session⟩] }

/-- The second section of the change at a place of the list. Whoever observes the document by now
is told. -/
def tell (store : DocumentStore) (place : Nat) : DocumentStore :=
  match store.pending[place]? with
  | none => store
  | some change =>
    let told := (store.observers change.document).map fun observer => { change with observer }
    { store with pending := store.pending.eraseIdx place, notices := store.notices ++ told }

/-- Both sections of a change, one right after the other. -/
def change (store : DocumentStore) (id : SessionId) (f : Session → Session) : DocumentStore :=
  (store.commit id f).tell store.pending.length

def subscribe (store : DocumentStore) (id : SessionId) : DocumentStore :=
  match store.document? id with
  | none => store
  | some d =>
    { store.put id { d with observers := d.observers ++ [store.observerCount] } with
      observerCount := store.observerCount + 1 }

/-- Raises the revision of a document and nothing else. -/
def touch (store : DocumentStore) (id : SessionId) : DocumentStore :=
  store.change id fun s => { s with revision := s.revision + 1 }

end DocumentStore

end CardBattle
