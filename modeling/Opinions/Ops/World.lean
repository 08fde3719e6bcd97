import Opinions.Lib.Run
import Opinions.Ops.Remedial

/-! Collections, write-offs and remedial credits as concurrent transactions. Every
statement reads what is committed at that moment and what its own transaction wrote;
locks are held to the end of the transaction. Advisory locks are hashed keys in the
source: a collision only makes a transaction wait longer. -/

namespace Opinions.Ops

open Lib Lib.Result Model Store Trade Money Credit

inductive Session
  | ingress (c : Ingress)
  | writeOffProposing (x : WriteOffProposing)
  | writeOffConfirming (x : WriteOffConfirming)
  | remedialProposing (x : RemedialProposing)
  | remedialConfirming (x : RemedialConfirming)

inductive Request
  | ingress
  | proposeWriteOff (actor : AdminContext) (cmd : WriteOffCmd)
  | confirmWriteOff (actor : AdminContext) (cmd : WriteOffCmd)
  | proposeRemedial (actor : AdminContext) (cmd : RemedialCreditCmd)
  | confirmRemedial (actor : AdminContext) (cmd : RemedialCreditCmd)

/-- The transaction as it begins; `began` is what the database calls now in all of it. -/
def Request.session (began : Instant) : Request → Except OpsError Session
  | .ingress => .ok (.ingress { began := began, postings := [], takings := [], collecting := none })
  | .proposeWriteOff actor cmd => do
    let proposer ← (principalDigest actor).mapError .app
    pure (.writeOffProposing { cmd := cmd, proposer := proposer, stage := .begun })
  | .confirmWriteOff actor cmd => do
    let confirmer ← (principalDigest actor).mapError .app
    pure (.writeOffConfirming { began := began, cmd := cmd, confirmer := confirmer, stage := .begun })
  | .proposeRemedial actor cmd => do
    let proposer ← (principalDigest actor).mapError .app
    if h : 0 < cmd.amountMicro then
      pure (.remedialProposing { cmd := cmd, proposer := proposer, stage := .begun, positive := h })
    else .error .invalidAmount
  | .confirmRemedial actor cmd => do
    let confirmer ← (principalDigest actor).mapError .app
    pure (.remedialConfirming { began := began, cmd := cmd, confirmer := confirmer, stage := .begun })

/-- A transaction that has made no statement yet. -/
inductive Begun (began : Instant) : Session → Prop
  | ingress :
      Begun began (.ingress { began := began, postings := [], takings := [], collecting := none })
  | writeOffProposing (cmd : WriteOffCmd) (proposer : String) :
      Begun began (.writeOffProposing ⟨cmd, proposer, .begun⟩)
  | writeOffConfirming (cmd : WriteOffCmd) (confirmer : String) :
      Begun began (.writeOffConfirming ⟨began, cmd, confirmer, .begun⟩)
  | remedialProposing (cmd : RemedialCreditCmd) (proposer : String) (h : 0 < cmd.amountMicro) :
      Begun began (.remedialProposing ⟨cmd, proposer, .begun, h⟩)
  | remedialConfirming (cmd : RemedialCreditCmd) (confirmer : String) :
      Begun began (.remedialConfirming ⟨began, cmd, confirmer, .begun⟩)

theorem Request.session_begun {request : Request} {began : Instant} {s : Session}
    (h : request.session began = .ok s) : Begun began s := by
  cases request with
  | ingress =>
    cases h
    exact .ingress
  | proposeRemedial =>
    simp only [Request.session, bind_eq_ok] at h
    obtain ⟨_, -, h⟩ := h
    split_ifs at h
    cases h
    constructor
  | proposeWriteOff actor cmd | confirmWriteOff actor cmd | confirmRemedial actor cmd =>
    simp only [Request.session, ok_iff] at h
    obtain ⟨_, -, rfl⟩ := h
    constructor

inductive Action
  | start (i : Nat) (began : Instant) (request : Request)
  | lockUser (i : Nat) (user : UserId)
  | post (i : Nat) (p : Posting)
  | readOpen (i : Nat) (user : UserId) (key actor : String)
  | readCash (i : Nat)
  | takeCash (i : Nat)
  | advance (i : Nat) (inputs : Inputs)
  | commit (i : Nat)
  | abort (i : Nat)
  | openReceivable (r : Receivable) (actor : String)

abbrev Sessions := Flight Session Lock

namespace Session

def ingress? : Session → Option Ingress
  | .ingress c => some c
  | _ => none

def advance (policy : OpsPolicy) (i : Nat) (db : OpsDb) (inputs : Inputs) (f : Sessions) :
    Session → Except Halt (Sessions × Session)
  | .ingress _ => .error .notReady
  | .writeOffProposing x => do
    let (f, stage) ← x.advance policy i db inputs f
    pure (f, .writeOffProposing { x with stage := stage })
  | .writeOffConfirming x => do
    let (f, stage) ← x.advance policy i db inputs f
    pure (f, .writeOffConfirming { x with stage := stage })
  | .remedialProposing x => do
    let (f, stage) ← x.advance policy i db inputs f
    pure (f, .remedialProposing { x with stage := stage })
  | .remedialConfirming x => do
    let (f, stage) ← x.advance policy i db inputs f
    pure (f, .remedialConfirming { x with stage := stage })

def commit (db : OpsDb) : Session → Except Halt OpsDb
  | .ingress c => c.commit db
  | .writeOffProposing x => x.commit db
  | .writeOffConfirming x => x.commit db
  | .remedialProposing x => x.commit db
  | .remedialConfirming x => x.commit db

end Session

structure World where
  db : OpsDb
  flight : Sessions

namespace World

def quiet (db : OpsDb) : World := { db := db, flight := .empty }

def ingressAt (w : World) (i : Nat) : Except Halt Ingress :=
  okOr ((w.flight.session i).bind Session.ingress?) .noSession

/-- The receivable an applied unwind opens for a user who could not pay. -/
def openReceivable (db : OpsDb) (r : Receivable) (actor : String) : Except StoreError OpsDb := do
  let opened ← db.insertReceivable r
  opened.insertReceivableMovement
    { receivable := r.id, kind := .opened, amountMicro := r.openedMicro, actor := actor
      cashTxn := none
      idempotencyKey := "unwind:" ++ uuidText r.market.uuid ++ ":recv:" ++ uuidText r.user.uuid
      createdAt := r.createdAt, positive := r.positive }

def step (policy : OpsPolicy) (w : World) : Action → Except Halt World
  | .start i began request => do
    refuse ((w.flight.session i).isSome) .sessionExists
    let s ← (request.session began).mapError .refused
    pure { w with flight := w.flight.put i s }
  | .lockUser i user => do
    let _ ← w.ingressAt i
    let f ← w.flight.hold i (.user user)
    pure { w with flight := f }
  | .post i p => do
    let c ← w.ingressAt i
    let (f, c) ← c.post i w.db p w.flight
    pure { w with flight := f.put i (.ingress c) }
  | .readOpen i user key actor => do
    let c ← w.ingressAt i
    let c ← c.readOpen i w.db user key actor w.flight
    pure { w with flight := w.flight.put i (.ingress c) }
  | .readCash i => do
    let c ← w.ingressAt i
    let c ← c.readCash w.db
    pure { w with flight := w.flight.put i (.ingress c) }
  | .takeCash i => do
    let c ← w.ingressAt i
    let (f, c) ← c.takeCash i w.db w.flight
    pure { w with flight := f.put i (.ingress c) }
  | .advance i inputs => do
    let s ← okOr (w.flight.session i) .noSession
    let (f, s) ← s.advance policy i w.db inputs w.flight
    pure { w with flight := f.put i s }
  | .commit i => do
    let s ← okOr (w.flight.session i) .noSession
    let db ← s.commit w.db
    pure { db := db, flight := w.flight.finish i }
  | .abort i => .ok { w with flight := w.flight.finish i }
  | .openReceivable r actor => do
    let db ← (openReceivable w.db r actor).mapError refusedStore
    pure { w with db := db }

end World

inductive Moved (policy : OpsPolicy) (w : World) : Action → World → Prop
  | start (i : Nat) (began : Instant) (request : Request) (s : Session)
      (hnew : w.flight.session i = none) (hs : request.session began = .ok s) :
      Moved policy w (.start i began request) { w with flight := w.flight.put i s }
  | lockUser (i : Nat) (user : UserId) (f : Sessions)
      (hf : w.flight.hold i (.user user) = (.ok f : Except Halt _)) :
      Moved policy w (.lockUser i user) { w with flight := f }
  | post (i : Nat) (p : Posting) (c c' : Ingress) (f : Sessions)
      (hs : w.flight.session i = some (.ingress c))
      (h : c.post i w.db p w.flight = .ok (f, c')) :
      Moved policy w (.post i p) { w with flight := f.put i (.ingress c') }
  | readOpen (i : Nat) (user : UserId) (key actor : String) (c c' : Ingress)
      (hs : w.flight.session i = some (.ingress c))
      (h : c.readOpen i w.db user key actor w.flight = .ok c') :
      Moved policy w (.readOpen i user key actor)
        { w with flight := w.flight.put i (.ingress c') }
  | readCash (i : Nat) (c c' : Ingress) (hs : w.flight.session i = some (.ingress c))
      (h : c.readCash w.db = .ok c') :
      Moved policy w (.readCash i) { w with flight := w.flight.put i (.ingress c') }
  | takeCash (i : Nat) (c c' : Ingress) (f : Sessions)
      (hs : w.flight.session i = some (.ingress c))
      (h : c.takeCash i w.db w.flight = .ok (f, c')) :
      Moved policy w (.takeCash i) { w with flight := f.put i (.ingress c') }
  | advance (i : Nat) (inputs : Inputs) (s s' : Session) (f : Sessions)
      (hs : w.flight.session i = some s)
      (h : s.advance policy i w.db inputs w.flight = .ok (f, s')) :
      Moved policy w (.advance i inputs) { w with flight := f.put i s' }
  | commit (i : Nat) (s : Session) (db : OpsDb) (hs : w.flight.session i = some s)
      (h : s.commit w.db = .ok db) :
      Moved policy w (.commit i) { db := db, flight := w.flight.finish i }
  | abort (i : Nat) : Moved policy w (.abort i) { w with flight := w.flight.finish i }
  | openReceivable (r : Receivable) (actor : String) (db : OpsDb)
      (h : World.openReceivable w.db r actor = .ok db) :
      Moved policy w (.openReceivable r actor) { w with db := db }

theorem World.ingressAt_eq_ok {w : World} {i : Nat} {c : Ingress} :
    w.ingressAt i = .ok c ↔ w.flight.session i = some (.ingress c) := by
  rw [ingressAt, okOr_eq_ok]
  cases hs : w.flight.session i with
  | none => simp
  | some s => cases s <;> simp [Session.ingress?]

theorem World.step_moved {policy : OpsPolicy} {w w' : World} {a : Action}
    (h : w.step policy a = .ok w') : Moved policy w a w' := by
  cases a with
  | start i began request =>
    simp only [World.step, ok_iff] at h
    obtain ⟨_, hnew, s, hs, rfl⟩ := h
    exact .start i began request s (by simpa using hnew) hs
  | lockUser i user =>
    simp only [World.step, ok_iff] at h
    obtain ⟨_, -, f, hf, rfl⟩ := h
    exact .lockUser i user f hf
  | post i p =>
    simp only [World.step, ingressAt_eq_ok, ok_iff] at h
    obtain ⟨c, hs, ⟨f, c'⟩, h, rfl⟩ := h
    exact .post i p c c' f hs h
  | readOpen i user key actor =>
    simp only [World.step, ingressAt_eq_ok, ok_iff] at h
    obtain ⟨c, hs, c', h, rfl⟩ := h
    exact .readOpen i user key actor c c' hs h
  | readCash i =>
    simp only [World.step, ingressAt_eq_ok, ok_iff] at h
    obtain ⟨c, hs, c', h, rfl⟩ := h
    exact .readCash i c c' hs h
  | takeCash i =>
    simp only [World.step, ingressAt_eq_ok, ok_iff] at h
    obtain ⟨c, hs, ⟨f, c'⟩, h, rfl⟩ := h
    exact .takeCash i c c' f hs h
  | advance i inputs =>
    simp only [World.step, ok_iff] at h
    obtain ⟨s, hs, ⟨f, s'⟩, h, rfl⟩ := h
    exact .advance i inputs s s' f hs h
  | commit i =>
    simp only [World.step, ok_iff] at h
    obtain ⟨s, hs, db, h, rfl⟩ := h
    exact .commit i s db hs h
  | abort i =>
    cases h
    exact .abort i
  | openReceivable r actor =>
    simp only [World.step, ok_iff] at h
    obtain ⟨db, h, rfl⟩ := h
    exact .openReceivable r actor db h

end Opinions.Ops
