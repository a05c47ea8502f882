import CardBattle.Action
import CardBattle.Catalog.Cache
import CardBattle.Document

/-!
# The engine

An engine is bound to one document and answers calls on it. A call works on a private copy of the
document, and then either replaces the document, if nobody changed it in the meantime, or leaves it
as it is and logs the failure. These two steps are `start` and `finish`; whatever happens in between
happens to other parts of the world or to the document itself.
-/

namespace CardBattle

inductive Call where
  | startWithDeck (player : Seat) (deck : List CardId)
  | playCard (player : Seat) (card : InstanceId)
  | castSpell (player : Seat) (card : InstanceId)
  | attackPlayer (player : Seat) (attacker : InstanceId) (target : Seat)
  | attackCard (player : Seat) (attacker defender : InstanceId)
  | endTurn (player : Seat)
  | healCreatures (player : Seat) (amount : Int)
  /-- Makes a new document from a finished game. -/
  | rematch
  deriving DecidableEq, Repr

namespace Call

def action : Call → String
  | startWithDeck _ _ => "start game"
  | playCard _ _ => "play card"
  | castSpell _ _ => "cast spell"
  | attackPlayer _ _ _ => "attack player"
  | attackCard _ _ _ => "attack creature"
  | endTurn _ => "end turn"
  | healCreatures _ _ => "heal creatures"
  | rematch => "create rematch"

/-- The player a call acts for; a rematch is asked for by the winner, or else by the current
player. -/
def player (call : Call) (s : Session) : Seat :=
  match call with
  | startWithDeck player _ => player
  | playCard player _ => player
  | castSpell player _ => player
  | attackPlayer player _ _ => player
  | attackCard player _ _ => player
  | endTurn player => player
  | healCreatures player _ => player
  | rematch => s.winner.getD s.current

def cards : Call → List CardId
  | startWithDeck _ deck => deck
  | _ => []

/-- What a call does to the session it works on. A rematch leaves a finished game as it is: its new
document is made by `Engine.judge`. -/
def play (call : Call) (ctx : Context) : Play Unit :=
  match call with
  | startWithDeck player deck => Play.submitDeckAndStart ctx player deck
  | playCard player card => Play.playCard ctx player card
  | castSpell player card => Play.castSpell ctx player card
  | attackPlayer player attacker target => Play.attackPlayerWith ctx player attacker target
  | attackCard player attacker defender => Play.attackCardWith ctx player attacker defender
  | endTurn player => Play.endTurnOf ctx player
  | healCreatures player amount => Play.healCreatures ctx player amount
  | rematch => return

end Call

/-- What is fixed for an engine: its document, its settings, and the outside parties. -/
structure Engine where
  document : SessionId
  config : Config
  source : DefinitionSource
  chooser : Chooser
  [random : Random.Source]

/-- What engines act on: documents, fetched definitions, the clock, and the requests made to the
chooser so far, latest first. -/
structure World where
  documents : DocumentStore
  definitions : DefinitionCache
  clock : Clock
  asked : List TargetRequest

inductive Verdict where
  /-- Replace the document, if it still has this revision. -/
  | commit (base : Nat) (session : Session)
  /-- Add a new document. -/
  | create (session : Session)
  /-- Leave the document as it is, and log why. -/
  | reject (error : GameError)

/-- A call between its two steps. -/
structure Pending where
  action : String
  player : Seat
  verdict : Verdict

inductive Reply where
  | accepted
  | created (id : SessionId)
  | refused
  deriving DecidableEq, Repr

def Reply.isAccepted : Reply → Bool
  | .refused => false
  | _ => true

namespace World

/-- The time that refused actions are logged with. -/
def now (w : World) : Nat :=
  w.clock.time 0

/-- Moves the clock, which counts milliseconds in 64 bits. -/
def advance (w : World) (millis : Nat) : World :=
  { w with clock := ⟨fun n => (w.clock.time n + millis) % UInt64.size⟩ }

end World

namespace Engine

/-- Makes a document for a new game, and an engine bound to it. -/
def newGame [Random.Source] (names : List String) (config : Config) (source : DefinitionSource)
    (chooser : Chooser) (w : World) : Except GameError (Engine × World) :=
  match Session.ofNames names config with
  | .error e => .error e
  | .ok session =>
    let (document, documents) := w.documents.create session
    .ok ({ document, config, source, chooser }, { w with documents })

def switch (e : Engine) (id : SessionId) (w : World) : Except GameError Engine :=
  match w.documents.find? id with
  | some _ => .ok { e with document := id }
  | none => .error (.sessionNotFound id)

/-- The cards that a session refers to: those of its copies, then those of its decks. -/
def referenced (s : Session) : List CardId :=
  s.instances.values.map (·.card) ++ s.players.data.flatMap (·.deckList)

/-- Loads the definitions that a session refers to, and some more. -/
def loadCatalog (e : Engine) (s : Session) (extra : List CardId) (w : World) :
    Except GameError Catalog × World :=
  let (answer, definitions) := w.definitions.loadAll e.source (referenced s ++ extra)
  (answer.mapError GameError.catalog, { w with definitions })

def context (e : Engine) (catalog : Catalog) (w : World) : Context where
  catalog := catalog
  config := e.config
  clock := w.clock
  chooser := e.chooser
  random := e.random

/-- The waiting game that would follow a session, and the seat that would go first. -/
def rematch (e : Engine) (s : Session) : Except GameError (Session × Seat) :=
  @Session.rematch e.random s e.config

/-- Carries out a step on a private session; the session that results, or the first error. -/
def work (e : Engine) (catalog : Catalog) (session : Session) (w : World)
    (step : Context → Play Unit) : Except GameError Session × World :=
  match step (e.context catalog w) { session, asked := w.asked } with
  | .ok _ t => (.ok t.session, { w with asked := t.asked })
  | .error error t => (.error error, { w with asked := t.asked })

/-- Loads what a session needs and carries out a step on it. -/
def prepare (e : Engine) (session : Session) (extra : List CardId) (step : Context → Play Unit)
    (w : World) : Except GameError Session × World :=
  match e.loadCatalog session extra w with
  | (.error error, w) => (.error error, w)
  | (.ok catalog, w) => e.work catalog session w step

/-- The verdict on a call, worked out from a snapshot of the document. -/
def judge (e : Engine) (call : Call) (snapshot : Session) (w : World) : Verdict × World :=
  match call with
  | .rematch =>
    match e.rematch snapshot with
    | .error error => (.reject error, w)
    | .ok (fresh, starting) =>
      match e.prepare fresh [] (fun ctx => Play.startGame ctx starting) w with
      | (.error error, w) => (.reject error, w)
      | (.ok session, w) => (.create session, w)
  | call =>
    match e.prepare snapshot call.cards call.play w with
    | (.error error, w) => (.reject error, w)
    | (.ok session, w) => (.commit snapshot.revision session, w)

/-- The first step of a call: a snapshot is taken and worked on. The documents do not change. -/
def start (e : Engine) (call : Call) (w : World) : Option Pending × World :=
  match w.documents.find? e.document with
  | none => (none, w)
  | some snapshot =>
    let (verdict, w) := e.judge call snapshot w
    (some ⟨call.action, call.player snapshot, verdict⟩, w)

/-- A session with a failure entry and the next revision. -/
def failed (p : Pending) (error : GameError) (now : Nat) (s : Session) : Session :=
  let s := s.record
    { player := p.player, action := .failure, description := error.failureText p.action
      timestamp := now }
  { s with revision := s.revision + 1 }

/-- What committing makes of a document: the new session if its revision is still the one the call
started from, and a failure entry otherwise. -/
def committed (p : Pending) (base : Nat) (session : Session) (now : Nat) (doc : Session) :
    Session :=
  if doc.revision = base then { session with revision := base + 1 }
  else failed p (.conflict base doc.revision) now doc

/-- The second step of a call, but for telling observers: the document is replaced, or a document is
added, or the failure is logged. -/
def conclude (e : Engine) (p : Pending) (w : World) : Reply × World :=
  match p.verdict with
  | .reject error =>
    (.refused, { w with documents := w.documents.commit e.document (failed p error w.now) })
  | .create session =>
    let (id, documents) := w.documents.create session
    (.created id, { w with documents })
  | .commit base session =>
    match w.documents.find? e.document with
    | none => (.refused, w)
    | some doc =>
      let documents := w.documents.commit e.document (committed p base session w.now)
      (if doc.revision = base then .accepted else .refused, { w with documents })

/-- The second step of a call. The change that it makes is the last one pending. -/
def finish (e : Engine) (p : Pending) (w : World) : Reply × World :=
  let (reply, concluded) := e.conclude p w
  (reply, { concluded with documents := concluded.documents.tell w.documents.pending.length })

/-- A call during which outside parties change documents: what they do may depend on the requests
that the call made to the chooser, latest first. -/
def performAmid (e : Engine) (outside : List TargetRequest → DocumentStore → DocumentStore)
    (call : Call) (w : World) : Reply × World :=
  match e.start call w with
  | (none, w') => (.refused, w')
  | (some p, w') =>
    let made := w'.asked.take (w'.asked.length - w.asked.length)
    e.finish p { w' with documents := outside made w'.documents }

def perform (e : Engine) (call : Call) (w : World) : Reply × World :=
  e.performAmid (fun _ documents => documents) call w

/-- A query on the current session; nothing is found if its definitions cannot be had. -/
def query {α : Type} (e : Engine) (ask : Session → Catalog → List α) (w : World) :
    List α × World :=
  match w.documents.find? e.document with
  | none => ([], w)
  | some s =>
    match e.loadCatalog s [] w with
    | (.error _, w) => ([], w)
    | (.ok catalog, w) => (ask s catalog, w)

def playableCards (e : Engine) (player : Seat) (w : World) : List InstanceId × World :=
  e.query (fun s catalog => s.playableCards catalog player) w

def availableAttackers (e : Engine) (player : Seat) (w : World) : List InstanceId × World :=
  e.query (fun s catalog => s.availableAttackers catalog player) w

def attackTargets (e : Engine) (attacker : InstanceId) (w : World) : List Target × World :=
  e.query (fun s catalog => s.attackTargets catalog attacker) w

end Engine

end CardBattle
