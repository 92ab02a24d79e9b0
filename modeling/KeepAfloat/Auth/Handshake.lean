import KeepAfloat.Auth.Hello
import Mathlib.Logic.Relation

/-! Any number of concurrent handshakes under one cluster secret, over a network that an
attacker controls. What a session reads is arbitrary, except that the tag of an input is not in
it before a holder of the secret has signed that input. A nonce is fresh. -/

namespace KeepAfloat

open Bytes (ascii ofWord toWord)

/-- The two hellos of a session, the client's first. -/
abbrev HelloPair := List UInt8 × List UInt8

def macDomain : List UInt8 := ascii "keepafloatd-mutual-auth" ++ [0]

def channelDomain : List UInt8 := ascii "keepafloatd-admission-channel" ++ [0]

/-- The other input of the keyed hash: admission records start with their own domain. -/
def recordDomain : List UInt8 := ascii "keepafloatd-admission-record" ++ [0]

def macInput (role : UInt8) (pair : HelloPair) : List UInt8 :=
  macDomain ++ [authVersion, role] ++ pair.1 ++ pair.2

def channelInput (pair : HelloPair) : List UInt8 :=
  channelDomain ++ [authVersion] ++ pair.1 ++ pair.2

def channelBinding (sha : List UInt8 → BitVec 256) (pair : HelloPair) : BitVec 256 :=
  sha (channelInput pair)

/-- Take a proof off the stream and compare it. -/
def verifyProof (hmac : List UInt8 → BitVec 256) (role : UInt8) (pair : HelloPair)
    (stream : List UInt8) : Except AdmissionDenied (List UInt8) := do
  let (proof, rest) ← readExact 32 stream
  ensure (toWord 256 proof = hmac (macInput role pair)) "authentication proof mismatch"
  return rest

structure AuthenticatedPeer where
  peer : Peer
  binding : BitVec 256

/-! ### Sessions -/

/-- How far a client session has come: it sent its hello, it accepted the server's hello
and proof and sent its own, it accepted the confirmation. -/
inductive ClientProgress where
  | greeted
  | proved (response : List UInt8) (peer : Peer)
  | complete (response : List UInt8) (peer : Peer)

/-- The hello that was accepted and the identity in it. -/
def ClientProgress.answer : ClientProgress → Option (List UInt8 × Peer)
  | .greeted => none
  | .proved response peer | .complete response peer => some (response, peer)

structure ClientSession where
  localPeer : Peer
  target : BitVec 64
  listener : Listener
  nonce : BitVec 256
  progress : ClientProgress

/-- A server session that answered a hello. -/
structure ServerSession where
  localPeer : Peer
  listener : Listener
  request : List UInt8
  peer : Peer
  nonce : BitVec 256
  complete : Bool

def ClientSession.request (client : ClientSession) : List UInt8 :=
  hello client.localPeer client.target client.listener 1 client.nonce

def ServerSession.response (server : ServerSession) : List UInt8 :=
  hello server.localPeer server.peer.id server.listener 2 server.nonce

def ServerSession.pair (server : ServerSession) : HelloPair := (server.request, server.response)

/-- The hellos that a client session goes by, once it accepted the server's. -/
def ClientSession.pair (client : ClientSession) : Option HelloPair :=
  client.progress.answer.map fun answer => (client.request, answer.1)

/-- The server's hello and its proof. -/
def ClientSession.readAnswer (hmac : List UInt8 → BitVec 256) (client : ClientSession)
    (stream : List UInt8) : Except AdmissionDenied ((List UInt8 × Peer) × List UInt8) := do
  let ((response, peer), stream) ← readHello client.listener 2 client.localPeer.id stream
  ensure (peer.id = client.target) "authentication responder mismatch"
  let stream ← verifyProof hmac 2 (client.request, response) stream
  return ((response, peer), stream)

def ClientSession.result (sha : List UInt8 → BitVec 256) (client : ClientSession) :
    Option AuthenticatedPeer :=
  match client.progress with
  | .complete response peer => some ⟨peer, channelBinding sha (client.request, response)⟩
  | _ => none

def ServerSession.result (sha : List UInt8 → BitVec 256) (server : ServerSession) :
    Option AuthenticatedPeer :=
  if server.complete then some ⟨server.peer, channelBinding sha server.pair⟩ else none

inductive Session where
  | client (session : ClientSession)
  | server (session : ServerSession)

namespace Session

def listener : Session → Listener
  | client session => session.listener
  | server session => session.listener

def nonce : Session → BitVec 256
  | client session => session.nonce
  | server session => session.nonce

def pair : Session → Option HelloPair
  | client session => session.pair
  | server session => some session.pair

def result (sha : List UInt8 → BitVec 256) : Session → Option AuthenticatedPeer
  | client session => session.result sha
  | server session => session.result sha

/-- The roles and hellos of the proofs that the session has sent. -/
def produces : Session → List (UInt8 × HelloPair)
  | client session => session.pair.toList.map fun pair => (1, pair)
  | server session => (2, session.pair) :: if session.complete then [(3, session.pair)] else []

/-- The roles and hellos of the proofs that the session has accepted. -/
def accepts : Session → List (UInt8 × HelloPair)
  | client session =>
      match session.progress with
      | .greeted => []
      | .proved response _ => [(2, session.request, response)]
      | .complete response _ => [(3, session.request, response), (2, session.request, response)]
  | server session => if session.complete then [(1, session.pair)] else []

end Session

/-- The tag of an input is read only if the input was signed. -/
def Unforged (hmac : List UInt8 → BitVec 256) (signed : List UInt8 → Prop)
    (stream input : List UInt8) : Prop :=
  ofWord (hmac input) <:+: stream → signed input

/-- One step of a session. `fresh` are the unused nonces, `signed` the inputs of every tag
that a holder of the secret has produced. -/
inductive SessionStep (hmac : List UInt8 → BitVec 256) (fresh : BitVec 256 → Prop)
    (signed : List UInt8 → Prop) : Option Session → Session → Prop
  | startClient (localPeer : Peer) (target : BitVec 64) (listener : Listener) (nonce : BitVec 256)
      (hFresh : fresh nonce) :
      SessionStep hmac fresh signed none (.client ⟨localPeer, target, listener, nonce, .greeted⟩)
  | answerClient (client : ClientSession) (stream response rest : List UInt8) (peer : Peer)
      (hGreeted : client.progress = .greeted)
      (hRead : client.readAnswer hmac stream = .ok ((response, peer), rest))
      (hUnforged : Unforged hmac signed stream (macInput 2 (client.request, response))) :
      SessionStep hmac fresh signed (some (.client client))
        (.client { client with progress := .proved response peer })
  | finishClient (client : ClientSession) (stream response rest : List UInt8) (peer : Peer)
      (hProved : client.progress = .proved response peer)
      (hVerify : verifyProof hmac 3 (client.request, response) stream = .ok rest)
      (hUnforged : Unforged hmac signed stream (macInput 3 (client.request, response))) :
      SessionStep hmac fresh signed (some (.client client))
        (.client { client with progress := .complete response peer })
  | startServer (localPeer : Peer) (listener : Listener) (stream request rest : List UInt8)
      (peer : Peer) (nonce : BitVec 256)
      (hRead : readHello listener 1 localPeer.id stream = .ok ((request, peer), rest))
      (hFresh : fresh nonce) :
      SessionStep hmac fresh signed none
        (.server ⟨localPeer, listener, request, peer, nonce, false⟩)
  | finishServer (server : ServerSession) (stream rest : List UInt8)
      (hOpen : server.complete = false)
      (hVerify : verifyProof hmac 1 server.pair stream = .ok rest)
      (hUnforged : Unforged hmac signed stream (macInput 1 server.pair)) :
      SessionStep hmac fresh signed (some (.server server)) (.server { server with complete := true })

/-- Every session that was ever started, and the admission records that were signed. -/
structure Handshakes where
  sessions : Nat → Option Session
  records : List (List UInt8)

namespace Handshakes

def start : Handshakes := ⟨fun _ => none, []⟩

def Fresh (state : Handshakes) (nonce : BitVec 256) : Prop :=
  ∀ id session, state.sessions id = some session → session.nonce ≠ nonce

/-- A session on this listener has sent a proof for this role and these hellos. -/
def Produced (state : Handshakes) (role : UInt8) (listener : Listener) (pair : HelloPair) : Prop :=
  ∃ id session, state.sessions id = some session ∧ session.listener = listener ∧
    (role, pair) ∈ session.produces

/-- A session on this listener has accepted a proof for this role and these hellos. -/
def Accepted (state : Handshakes) (role : UInt8) (listener : Listener) (pair : HelloPair) : Prop :=
  ∃ id session, state.sessions id = some session ∧ session.listener = listener ∧
    (role, pair) ∈ session.accepts

/-- The inputs of the tags that holders of the secret have produced. -/
def Signed (state : Handshakes) (input : List UInt8) : Prop :=
  (∃ body ∈ state.records, input = recordDomain ++ body) ∨
    ∃ role listener pair, state.Produced role listener pair ∧ input = macInput role pair

/-- The inputs of the bindings that sessions compute. -/
def Bound (state : Handshakes) (input : List UInt8) : Prop :=
  ∃ id session pair, state.sessions id = some session ∧ session.pair = some pair ∧
    input = channelInput pair

def put (state : Handshakes) (id : Nat) (session : Session) : Handshakes :=
  { state with sessions := Function.update state.sessions id (some session) }

end Handshakes

inductive HandshakeStep (hmac : List UInt8 → BitVec 256) : Handshakes → Handshakes → Prop
  | session (state : Handshakes) (id : Nat) (next : Session)
      (h : SessionStep hmac state.Fresh state.Signed (state.sessions id) next) :
      HandshakeStep hmac state (state.put id next)
  | record (state : Handshakes) (body : List UInt8) :
      HandshakeStep hmac state { state with records := body :: state.records }

def HandshakeRun (hmac : List UInt8 → BitVec 256) : Handshakes → Handshakes → Prop :=
  Relation.ReflTransGen (HandshakeStep hmac)

/-! ### One session -/

/-- Hellos of the two roles on this listener. -/
def Exchange (listener : Listener) (pair : HelloPair) : Prop :=
  ∃ client target nonce server target' nonce',
    pair = (hello client target listener 1 nonce, hello server target' listener 2 nonce')

/-- The hello that a session accepted names its peer, and was written for it. -/
def Session.Addressed : Session → Prop
  | .client session => ∀ answer, session.progress.answer = some answer →
      ∃ nonce, answer.1 = hello answer.2 session.localPeer.id session.listener 2 nonce
  | .server session =>
      ∃ nonce, session.request = hello session.peer session.localPeer.id session.listener 1 nonce

theorem Session.Addressed.exchange {session : Session} (h : session.Addressed) {pair : HelloPair}
    (hPair : session.pair = some pair) : Exchange session.listener pair := by
  cases session with
  | client session =>
      obtain ⟨answer, hAnswer, rfl⟩ := Option.map_eq_some_iff.mp hPair
      obtain ⟨nonce, hResponse⟩ := h answer hAnswer
      exact ⟨_, _, _, _, _, nonce, Prod.ext rfl hResponse⟩
  | server session =>
      obtain ⟨nonce, hRequest⟩ := h
      obtain rfl := Option.some.inj hPair
      exact ⟨_, _, nonce, _, _, _, Prod.ext hRequest rfl⟩

theorem Session.pair_of_produces {session : Session} {role : UInt8} {pair : HelloPair}
    (h : (role, pair) ∈ session.produces) : session.pair = some pair := by
  cases session with
  | client session =>
      obtain ⟨used, hUsed, hEntry⟩ := List.mem_map.mp h
      obtain ⟨-, rfl⟩ := Prod.mk.inj hEntry
      exact Option.mem_toList.mp hUsed
  | server session =>
      rw [Session.produces, List.mem_cons] at h
      rcases h with hAnswer | hConfirmation
      · exact congrArg some (Prod.mk.inj hAnswer).2.symm
      · split at hConfirmation
        · exact congrArg some (Prod.mk.inj (List.mem_singleton.mp hConfirmation)).2.symm
        · cases hConfirmation

theorem Session.pair_of_accepts {session : Session} {role : UInt8} {pair : HelloPair}
    (h : (role, pair) ∈ session.accepts) : session.pair = some pair := by
  cases session with
  | client session =>
      obtain ⟨localPeer, target, listener, nonce, progress⟩ := session
      cases progress with
      | greeted => cases h
      | proved response peer =>
          obtain ⟨-, rfl⟩ := Prod.mk.inj (List.mem_singleton.mp h)
          rfl
      | complete response peer =>
          rcases List.mem_cons.mp h with hConfirmation | hAnswer
          · obtain ⟨-, rfl⟩ := Prod.mk.inj hConfirmation
            rfl
          · obtain ⟨-, rfl⟩ := Prod.mk.inj (List.mem_singleton.mp hAnswer)
            rfl
  | server session =>
      rw [Session.accepts] at h
      split at h
      · exact congrArg some (Prod.mk.inj (List.mem_singleton.mp h)).2.symm
      · cases h

theorem Session.pair_of_result {sha : List UInt8 → BitVec 256} {session : Session}
    {result : AuthenticatedPeer} (h : session.result sha = some result) :
    ∃ pair, session.pair = some pair ∧ result.binding = channelBinding sha pair := by
  cases session with
  | client session =>
      obtain ⟨localPeer, target, listener, nonce, progress⟩ := session
      cases progress with
      | greeted => cases h
      | proved response peer => cases h
      | complete response peer =>
          obtain rfl := Option.some.inj h
          exact ⟨_, rfl, rfl⟩
  | server session =>
      rw [Session.result, ServerSession.result] at h
      split at h
      · obtain rfl := Option.some.inj h
        exact ⟨_, rfl, rfl⟩
      · cases h

variable {hmac : List UInt8 → BitVec 256}

/-- A proof verifies exactly if it is the tag. -/
theorem verifyProof_eq_ok {role : UInt8} {pair : HelloPair} {stream rest : List UInt8} :
    verifyProof hmac role pair stream = .ok rest ↔
      stream = ofWord (hmac (macInput role pair)) ++ rest := by
  simp only [verifyProof, Checks.bind_eq_ok, Checks.pure_eq_ok, Prod.exists, readExact_eq_ok]
  constructor
  · rintro ⟨proof, _, ⟨rfl, hLength⟩, _, hTag, rfl⟩
    rw [ensure_eq_ok, decide_eq_true_eq] at hTag
    rw [← hTag, Bytes.ofWord_toWord (by rw [hLength])]
  · intro hStream
    exact ⟨_, rest, ⟨hStream, Bytes.length_ofWord _⟩, (), by simp [Bytes.toWord_ofWord], rfl⟩

/-- The server's hello stands before its proof. -/
theorem ClientSession.readAnswer_spec {client : ClientSession} {stream response rest : List UInt8}
    {peer : Peer} (h : client.readAnswer hmac stream = .ok ((response, peer), rest)) :
    ∃ after, readHello client.listener 2 client.localPeer.id stream =
        .ok ((response, peer), after) ∧
      verifyProof hmac 2 (client.request, response) after = .ok rest := by
  simp only [ClientSession.readAnswer, Checks.bind_eq_ok, Checks.pure_eq_ok] at h
  obtain ⟨⟨⟨bytes, announced⟩, after⟩, hHello, _, -, rest', hVerify, hResult⟩ := h
  obtain ⟨hHead, rfl⟩ := Prod.mk.inj hResult
  obtain ⟨rfl, rfl⟩ := Prod.mk.inj hHead
  exact ⟨after, hHello, hVerify⟩

theorem Unforged.signed {signed : List UInt8 → Prop} {role : UInt8} {pair : HelloPair}
    (before : List UInt8) {stream rest : List UInt8}
    (h : Unforged hmac signed (before ++ stream) (macInput role pair))
    (hVerify : verifyProof hmac role pair stream = .ok rest) : signed (macInput role pair) := by
  rw [verifyProof_eq_ok] at hVerify
  exact h ⟨before, rest, by rw [hVerify, List.append_assoc]⟩

section SessionSteps

variable {fresh : BitVec 256 → Prop} {signed : List UInt8 → Prop}

theorem SessionStep.fresh_of_start {next : Session} (h : SessionStep hmac fresh signed none next) :
    fresh next.nonce := by
  cases h with
  | startClient localPeer target listener nonce hFresh => exact hFresh
  | startServer localPeer listener stream request rest peer nonce hRead hFresh => exact hFresh

/-- A session keeps its nonce, its listener and what it has sent. -/
theorem SessionStep.keeps {before next : Session}
    (h : SessionStep hmac fresh signed (some before) next) :
    next.nonce = before.nonce ∧ next.listener = before.listener ∧
      ∀ entry ∈ before.produces, entry ∈ next.produces := by
  cases h with
  | answerClient client stream response rest peer hGreeted hRead hUnforged =>
      refine ⟨rfl, rfl, fun entry hEntry => ?_⟩
      rw [Session.produces, ClientSession.pair, hGreeted] at hEntry
      cases hEntry
  | finishClient client stream response rest peer hProved hVerify hUnforged =>
      refine ⟨rfl, rfl, fun entry hEntry => ?_⟩
      rwa [Session.produces, ClientSession.pair, hProved] at hEntry
  | finishServer server stream rest hOpen hVerify hUnforged =>
      refine ⟨rfl, rfl, fun entry hEntry => ?_⟩
      rw [Session.produces, hOpen] at hEntry
      exact List.mem_cons.mpr (.inl (List.mem_singleton.mp hEntry))

theorem SessionStep.addressed {before : Option Session} {next : Session}
    (h : SessionStep hmac fresh signed before next)
    (hBefore : ∀ session, before = some session → session.Addressed) : next.Addressed := by
  cases h with
  | startClient localPeer target listener nonce hFresh =>
      intro answer hAnswer
      cases hAnswer
  | answerClient client stream response rest peer hGreeted hRead hUnforged =>
      intro answer hAnswer
      obtain rfl := Option.some.inj hAnswer
      obtain ⟨after, hHello, -⟩ := client.readAnswer_spec hRead
      exact eq_hello_of_readHello hHello
  | finishClient client stream response rest peer hProved hVerify hUnforged =>
      intro answer hAnswer
      have hPrevious := hBefore _ rfl answer
      rw [hProved] at hPrevious
      exact hPrevious hAnswer
  | startServer localPeer listener stream request rest peer nonce hRead hFresh =>
      exact eq_hello_of_readHello hRead
  | finishServer server stream rest hOpen hVerify hUnforged => exact hBefore (.server server) rfl

/-- What a session accepts at a step, a holder of the secret has signed. -/
theorem SessionStep.accepts {before : Option Session} {next : Session}
    (h : SessionStep hmac fresh signed before next) {role : UInt8} {pair : HelloPair}
    (hAccepts : (role, pair) ∈ next.accepts) :
    (∃ session, before = some session ∧ (role, pair) ∈ session.accepts) ∨
      signed (macInput role pair) := by
  cases h with
  | startClient localPeer target listener nonce hFresh => cases hAccepts
  | answerClient client stream response rest peer hGreeted hRead hUnforged =>
      obtain ⟨rfl, rfl⟩ := Prod.mk.inj (List.mem_singleton.mp hAccepts)
      obtain ⟨after, hHello, hVerify⟩ := client.readAnswer_spec hRead
      rw [(readHello_eq_ok.mp hHello).1] at hUnforged
      exact .inr (hUnforged.signed _ hVerify)
  | finishClient client stream response rest peer hProved hVerify hUnforged =>
      rcases List.mem_cons.mp hAccepts with hConfirmation | hAnswer
      · obtain ⟨rfl, rfl⟩ := Prod.mk.inj hConfirmation
        exact .inr (Unforged.signed [] hUnforged hVerify)
      · refine .inl ⟨_, rfl, ?_⟩
        rw [Session.accepts, hProved]
        exact hAnswer
  | startServer localPeer listener stream request rest peer nonce hRead hFresh => cases hAccepts
  | finishServer server stream rest hOpen hVerify hUnforged =>
      obtain ⟨rfl, rfl⟩ := Prod.mk.inj (List.mem_singleton.mp hAccepts)
      exact .inr (Unforged.signed [] hUnforged hVerify)

end SessionSteps

/-! ### All sessions -/

namespace Handshakes

/-- What holds at any time: a nonce names one session, accepted hellos are addressed to
the session that accepted them, and accepted proofs were sent by someone. -/
structure Ordered (state : Handshakes) : Prop where
  nonces : ∀ {id id' : Nat} {session session' : Session}, state.sessions id = some session →
    state.sessions id' = some session' → session.nonce = session'.nonce → id = id'
  addressed : ∀ {id : Nat} {session : Session}, state.sessions id = some session →
    session.Addressed
  accepted : ∀ {role : UInt8} {listener : Listener} {pair : HelloPair},
    state.Accepted role listener pair → state.Signed (macInput role pair)

@[simp] theorem sessions_put_self (state : Handshakes) (id : Nat) (next : Session) :
    (state.put id next).sessions id = some next :=
  Function.update_self ..

theorem sessions_put_of_ne (state : Handshakes) {id other : Nat} (h : other ≠ id) (next : Session) :
    (state.put id next).sessions other = state.sessions other :=
  Function.update_of_ne h ..

theorem sessions_put {state : Handshakes} {id other : Nat} {next session : Session}
    (h : (state.put id next).sessions other = some session) :
    other = id ∧ session = next ∨ other ≠ id ∧ state.sessions other = some session := by
  by_cases hOther : other = id
  · subst hOther
    rw [sessions_put_self] at h
    exact .inl ⟨rfl, (Option.some.inj h).symm⟩
  · rw [sessions_put_of_ne state hOther] at h
    exact .inr ⟨hOther, h⟩

theorem Produced.put {state : Handshakes} {id : Nat} {next : Session}
    (hStep : SessionStep hmac state.Fresh state.Signed (state.sessions id) next) {role : UInt8}
    {listener : Listener} {pair : HelloPair} (h : state.Produced role listener pair) :
    (state.put id next).Produced role listener pair := by
  obtain ⟨other, session, hSession, hListener, hEntry⟩ := h
  by_cases hOther : other = id
  · subst hOther
    rw [hSession] at hStep
    obtain ⟨-, hSame, hKeeps⟩ := hStep.keeps
    exact ⟨other, next, sessions_put_self .., hSame.trans hListener, hKeeps _ hEntry⟩
  · exact ⟨other, session, (sessions_put_of_ne state hOther next).trans hSession, hListener, hEntry⟩

theorem Signed.put {state : Handshakes} {id : Nat} {next : Session}
    (hStep : SessionStep hmac state.Fresh state.Signed (state.sessions id) next)
    {input : List UInt8} (h : state.Signed input) : (state.put id next).Signed input := by
  rcases h with hRecord | ⟨role, listener, pair, hProduced, hInput⟩
  · exact .inl hRecord
  · exact .inr ⟨role, listener, pair, hProduced.put hStep, hInput⟩

theorem Ordered.put {state : Handshakes} (h : state.Ordered) {id : Nat} {next : Session}
    (hStep : SessionStep hmac state.Fresh state.Signed (state.sessions id) next) :
    (state.put id next).Ordered := by
  have hNonce : ∀ {other : Nat} {session : Session}, state.sessions other = some session →
      session.nonce = next.nonce → other = id := by
    intro other session hSession hSame
    cases hBefore : state.sessions id with
    | none =>
        rw [hBefore] at hStep
        exact absurd hSame (hStep.fresh_of_start other session hSession)
    | some before =>
        rw [hBefore] at hStep
        exact h.nonces hSession hBefore (hSame.trans hStep.keeps.1)
  constructor
  · intro first second session session' hFirst hSecond hSame
    rcases sessions_put hFirst with ⟨rfl, rfl⟩ | ⟨-, hKept⟩
    · rcases sessions_put hSecond with ⟨rfl, -⟩ | ⟨-, hKept'⟩
      · rfl
      · exact (hNonce hKept' hSame.symm).symm
    · rcases sessions_put hSecond with ⟨rfl, rfl⟩ | ⟨-, hKept'⟩
      · exact hNonce hKept hSame
      · exact h.nonces hKept hKept' hSame
  · intro other session hSession
    rcases sessions_put hSession with ⟨rfl, rfl⟩ | ⟨-, hSession⟩
    · exact hStep.addressed fun before hBefore => h.addressed hBefore
    · exact h.addressed hSession
  · rintro role listener pair ⟨other, session, hSession, hListener, hAccepts⟩
    rcases sessions_put hSession with ⟨rfl, rfl⟩ | ⟨-, hSession⟩
    · rcases hStep.accepts hAccepts with ⟨before, hBefore, hEarlier⟩ | hSigned
      · exact (h.accepted ⟨other, before, hBefore, rfl, hEarlier⟩).put hStep
      · exact hSigned.put hStep
    · exact (h.accepted ⟨other, session, hSession, hListener, hAccepts⟩).put hStep

theorem Ordered.record {state : Handshakes} (h : state.Ordered) (body : List UInt8) :
    Ordered { state with records := body :: state.records } := by
  refine ⟨h.nonces, h.addressed, fun hAccepted => ?_⟩
  rcases h.accepted hAccepted with ⟨signed, hMem, hInput⟩ | hProduced
  · exact .inl ⟨signed, List.mem_cons_of_mem _ hMem, hInput⟩
  · exact .inr hProduced

theorem ordered_start : start.Ordered where
  nonces h := by cases h
  addressed h := by cases h
  accepted h := by
    obtain ⟨_, _, hSession, _⟩ := h
    cases hSession

end Handshakes

theorem HandshakeRun.ordered {state : Handshakes} (h : HandshakeRun hmac .start state) :
    state.Ordered := by
  induction h with
  | refl => exact Handshakes.ordered_start
  | tail _ hStep ih =>
      cases hStep with
      | session id next hSession => exact ih.put hSession
      | record body => exact ih.record body

/-! ### Agreement -/

theorem Exchange.length {listener : Listener} {pair : HelloPair} (h : Exchange listener pair) :
    pair.1.length = helloBytes ∧ pair.2.length = helloBytes := by
  obtain ⟨client, target, nonce, server, target', nonce', rfl⟩ := h
  exact ⟨length_hello .., length_hello ..⟩

/-- The hellos have fixed length, so their bytes in a row determine them. -/
theorem Exchange.eq_of_append {listener listener' : Listener} {pair pair' : HelloPair}
    (h : Exchange listener pair) (h' : Exchange listener' pair')
    (hBytes : pair.1 ++ pair.2 = pair'.1 ++ pair'.2) : pair = pair' := by
  obtain ⟨hFirst, hSecond⟩ := List.append_inj hBytes (h.length.1.trans h'.length.1.symm)
  exact Prod.ext hFirst hSecond

theorem Exchange.listener_eq {listener listener' : Listener} {pair : HelloPair}
    (h : Exchange listener pair) (h' : Exchange listener' pair) : listener = listener' := by
  obtain ⟨client, target, nonce, server, peer, nonce', rfl⟩ := h
  obtain ⟨client', target', _, server', peer', _, hPair⟩ := h'
  exact (hello_injective (Prod.mk.inj hPair).1).2.2.1

theorem Exchange.macInput_inj {listener listener' : Listener} {pair pair' : HelloPair}
    {role role' : UInt8} (h : Exchange listener pair) (h' : Exchange listener' pair')
    (hInput : macInput role pair = macInput role' pair') :
    role = role' ∧ listener = listener' ∧ pair = pair' := by
  simp only [macInput, List.append_assoc, List.append_cancel_left_eq] at hInput
  obtain ⟨hHead, hTail⟩ := List.append_inj hInput rfl
  obtain rfl := h.eq_of_append h' hTail
  exact ⟨(List.cons.inj (List.cons.inj hHead).2).1, h.listener_eq h', rfl⟩

theorem Exchange.channelInput_inj {listener listener' : Listener} {pair pair' : HelloPair}
    (h : Exchange listener pair) (h' : Exchange listener' pair')
    (hInput : channelInput pair = channelInput pair') : pair = pair' := by
  simp only [channelInput, List.append_assoc, List.append_cancel_left_eq] at hInput
  exact h.eq_of_append h' hInput

/-- The two uses of the key are apart in their domains. -/
theorem macInput_ne_record (role : UInt8) (pair : HelloPair) (body : List UInt8) :
    macInput role pair ≠ recordDomain ++ body := by
  intro h
  have hHead := congrArg (List.take 13) h
  simp only [macInput, List.append_assoc] at hHead
  rw [List.take_append_of_le_length (by decide), List.take_append_of_le_length (by decide)] at hHead
  exact absurd hHead (by decide)

namespace Handshakes

variable {state : Handshakes}

theorem Ordered.exchange_of_produced (h : state.Ordered) {role : UInt8} {listener : Listener}
    {pair : HelloPair} (hProduced : state.Produced role listener pair) : Exchange listener pair := by
  obtain ⟨id, session, hSession, rfl, hEntry⟩ := hProduced
  exact (h.addressed hSession).exchange (Session.pair_of_produces hEntry)

/-- A proof is accepted for the role, the listener and the hellos that it was sent for. -/
theorem Ordered.produced_of_accepted (h : state.Ordered) {role : UInt8} {listener : Listener}
    {pair : HelloPair} (hAccepted : state.Accepted role listener pair) :
    state.Produced role listener pair := by
  have hExchange : Exchange listener pair := by
    obtain ⟨id, session, hSession, rfl, hEntry⟩ := hAccepted
    exact (h.addressed hSession).exchange (Session.pair_of_accepts hEntry)
  rcases h.accepted hAccepted with ⟨body, -, hRecord⟩ | ⟨role', listener', pair', hProduced, hInput⟩
  · exact absurd hRecord (macInput_ne_record role pair body)
  · obtain ⟨rfl, rfl, rfl⟩ := hExchange.macInput_inj (h.exchange_of_produced hProduced) hInput
    exact hProduced

/-- Only clients send a proof of the first role. -/
theorem Produced.client {listener : Listener} {pair : HelloPair}
    (h : state.Produced 1 listener pair) :
    ∃ id client, state.sessions id = some (.client client) ∧ client.pair = some pair := by
  obtain ⟨id, session, hSession, -, hEntry⟩ := h
  cases session with
  | client client => exact ⟨id, client, hSession, Session.pair_of_produces hEntry⟩
  | server server =>
      rw [Session.produces] at hEntry
      split at hEntry <;> simp at hEntry

/-- Only servers send a proof of the third role. -/
theorem Produced.server {listener : Listener} {pair : HelloPair}
    (h : state.Produced 3 listener pair) :
    ∃ id server, state.sessions id = some (.server server) ∧ server.pair = pair := by
  obtain ⟨id, session, hSession, -, hEntry⟩ := h
  cases session with
  | client client =>
      obtain ⟨used, -, hRole⟩ := List.mem_map.mp hEntry
      exact absurd (Prod.mk.inj hRole).1 (by decide)
  | server server => exact ⟨id, server, hSession, Option.some.inj (Session.pair_of_produces hEntry)⟩

theorem Ordered.client_unique (h : state.Ordered) {id id' : Nat} {client client' : ClientSession}
    (hClient : state.sessions id = some (.client client))
    (hClient' : state.sessions id' = some (.client client'))
    (hRequest : client.request = client'.request) : id = id' :=
  h.nonces hClient hClient' (hello_injective hRequest).2.2.2.2

theorem Ordered.server_unique (h : state.Ordered) {id id' : Nat} {server server' : ServerSession}
    (hServer : state.sessions id = some (.server server))
    (hServer' : state.sessions id' = some (.server server'))
    (hResponse : server.response = server'.response) : id = id' :=
  h.nonces hServer hServer' (hello_injective hResponse).2.2.2.2

end Handshakes

theorem ClientSession.request_of_pair {client : ClientSession} {pair : HelloPair}
    (h : client.pair = some pair) : client.request = pair.1 := by
  obtain ⟨answer, -, rfl⟩ := Option.map_eq_some_iff.mp h
  rfl

/-- A completed server session has exactly one client. -/
theorem Handshakes.Ordered.client_of_server {state : Handshakes} (h : state.Ordered) {id : Nat}
    {server : ServerSession} (hServer : state.sessions id = some (.server server))
    (hComplete : server.complete = true) :
    ∃! other, ∃ client, state.sessions other = some (.client client) ∧
      client.localPeer = server.peer ∧ client.target = server.localPeer.id ∧
      client.listener = server.listener ∧ client.pair = some server.pair := by
  have hAccepted : state.Accepted 1 server.listener server.pair :=
    ⟨id, _, hServer, rfl, by simp [Session.accepts, hComplete]⟩
  obtain ⟨other, client, hClient, hPair⟩ := (h.produced_of_accepted hAccepted).client
  have hRequest : client.request = server.request := client.request_of_pair hPair
  obtain ⟨nonce, hAddressed⟩ := h.addressed hServer
  obtain ⟨hPeer, hTarget, hListener, -, -⟩ := hello_injective (hRequest.trans hAddressed)
  refine ⟨other, ⟨client, hClient, hPeer, hTarget, hListener, hPair⟩, ?_⟩
  rintro other' ⟨client', hClient', -, -, -, hPair'⟩
  exact h.client_unique hClient' hClient ((client'.request_of_pair hPair').trans hRequest.symm)

/-- A completed client session has exactly one server. -/
theorem Handshakes.Ordered.server_of_client {state : Handshakes} (h : state.Ordered) {id : Nat}
    {client : ClientSession} {response : List UInt8} {peer : Peer}
    (hClient : state.sessions id = some (.client client))
    (hComplete : client.progress = .complete response peer) :
    ∃! other, ∃ server, state.sessions other = some (.server server) ∧
      server.localPeer = peer ∧ server.listener = client.listener ∧
      client.pair = some server.pair := by
  have hAnswer : client.progress.answer = some (response, peer) := by rw [hComplete]; rfl
  have hPair : client.pair = some (client.request, response) := by
    rw [ClientSession.pair, hAnswer, Option.map_some]
  have hAccepted : state.Accepted 3 client.listener (client.request, response) :=
    ⟨id, _, hClient, rfl, by simp [Session.accepts, hComplete]⟩
  obtain ⟨other, server, hServer, hSame⟩ := (h.produced_of_accepted hAccepted).server
  have hResponse : server.response = response := congrArg Prod.snd hSame
  obtain ⟨nonce, hAddressed⟩ := h.addressed hClient _ hAnswer
  obtain ⟨hPeer, -, hListener, -, -⟩ := hello_injective (hResponse.trans hAddressed)
  refine ⟨other, ⟨server, hServer, hPeer, hListener, by rw [hPair, hSame]⟩, ?_⟩
  rintro other' ⟨server', hServer', -, -, hPair'⟩
  have hSame' : (client.request, response) = server'.pair := Option.some.inj (hPair.symm.trans hPair')
  exact h.server_unique hServer' hServer (congrArg Prod.snd (hSame'.symm.trans hSame.symm))

/-! ### An undisturbed exchange -/

/-- Both ends of the exchange between two peers. -/
def completedClient (client server : Peer) (listener : Listener) (nonce nonce' : BitVec 256) :
    ClientSession :=
  ⟨client, server.id, listener, nonce, .complete (hello server client.id listener 2 nonce') server⟩

def completedServer (client server : Peer) (listener : Listener) (nonce nonce' : BitVec 256) :
    ServerSession :=
  ⟨server, listener, hello client server.id listener 1 nonce, client, nonce', true⟩

/-- If nothing is lost or altered, two sessions with fresh nonces complete with each other. -/
theorem exchange_completes {state : Handshakes} {id id' : Nat} (hId : state.sessions id = none)
    (hId' : state.sessions id' = none) (hIds : id' ≠ id) (client server : Peer)
    (listener : Listener) {nonce nonce' : BitVec 256} (hNonce : state.Fresh nonce)
    (hNonce' : state.Fresh nonce') (hNonces : nonce ≠ nonce') :
    ∃ after, HandshakeRun hmac state after ∧ after.records = state.records ∧
      after.sessions id = some (.client (completedClient client server listener nonce nonce')) ∧
      after.sessions id' = some (.server (completedServer client server listener nonce nonce')) ∧
      ∀ other, other ≠ id → other ≠ id' → after.sessions other = state.sessions other := by
  let request := hello client server.id listener 1 nonce
  let response := hello server client.id listener 2 nonce'
  let greeted : ClientSession := ⟨client, server.id, listener, nonce, .greeted⟩
  let proved : ClientSession := { greeted with progress := .proved response server }
  let opened : ServerSession := ⟨server, listener, request, client, nonce', false⟩
  let first := state.put id (.client greeted)
  let second := first.put id' (.server opened)
  let third := second.put id (.client proved)
  let fourth := third.put id' (.server { opened with complete := true })
  have hFirst : HandshakeStep hmac state first :=
    .session state id _ (hId ▸ .startClient client server.id listener nonce hNonce)
  have hSecond : HandshakeStep hmac first second := by
    have hRead := readHello_hello client server.id listener 1 nonce []
    have hUnused : first.sessions id' = none := (state.sessions_put_of_ne hIds _).trans hId'
    refine .session first id' _ (hUnused ▸ .startServer server listener _ _ _ _ _ hRead ?_)
    intro other session hSession
    rcases Handshakes.sessions_put hSession with ⟨-, rfl⟩ | ⟨-, hSession⟩
    · exact hNonces
    · exact hNonce' other session hSession
  have hThird : HandshakeStep hmac second third := by
    have hClient : second.sessions id = some (.client greeted) :=
      (first.sessions_put_of_ne hIds.symm _).trans (state.sessions_put_self id _)
    have hRead : greeted.readAnswer hmac
        (response ++ (ofWord (hmac (macInput 2 (request, response))) ++ [])) =
          .ok ((response, server), []) := by
      simp only [ClientSession.readAnswer, Checks.bind_eq_ok, Checks.pure_eq_ok]
      exact ⟨_, readHello_hello .., (), ensure_eq_ok.mpr (decide_eq_true rfl), [],
        verifyProof_eq_ok.mpr rfl, rfl⟩
    refine .session second id _ (hClient ▸ .answerClient greeted _ _ _ _ rfl hRead fun _ => ?_)
    exact .inr ⟨2, listener, (request, response),
      ⟨id', _, first.sessions_put_self id' _, rfl, List.mem_cons_self⟩, rfl⟩
  have hFourth : HandshakeStep hmac third fourth := by
    have hServer : third.sessions id' = some (.server opened) :=
      (second.sessions_put_of_ne hIds _).trans (first.sessions_put_self id' _)
    refine .session third id' _ (hServer ▸ .finishServer opened _ _ rfl
      (verifyProof_eq_ok.mpr (List.append_nil _).symm) fun _ => ?_)
    exact .inr ⟨1, listener, (request, response),
      ⟨id, _, second.sessions_put_self id _, rfl, List.mem_cons_self⟩, rfl⟩
  have hClient : fourth.sessions id = some (.client proved) :=
    (third.sessions_put_of_ne hIds.symm _).trans (second.sessions_put_self id _)
  have hFifth : HandshakeStep hmac fourth
      (fourth.put id (.client { proved with progress := .complete response server })) := by
    refine .session fourth id _ (hClient ▸ .finishClient proved _ _ _ _ rfl
      (verifyProof_eq_ok.mpr (List.append_nil _).symm) fun _ => ?_)
    exact .inr ⟨3, listener, (request, response), ⟨id', _, third.sessions_put_self id' _, rfl,
      List.mem_cons_of_mem _ List.mem_cons_self⟩, rfl⟩
  refine ⟨_, ((((Relation.ReflTransGen.single hFirst).tail hSecond).tail hThird).tail hFourth).tail
    hFifth, rfl, fourth.sessions_put_self id _, ?_, ?_⟩
  · exact (fourth.sessions_put_of_ne hIds _).trans (third.sessions_put_self id' _)
  · intro other hOther hOther'
    rw [fourth.sessions_put_of_ne hOther, third.sessions_put_of_ne hOther',
      second.sessions_put_of_ne hOther, first.sessions_put_of_ne hOther',
      state.sessions_put_of_ne hOther]

/-- In every run of any number of handshakes, a session that completes has exactly one
counterpart with the same hellos. The bindings that sessions return are equal exactly for
equal hellos, and a proof is accepted only for the role, the listener and the hellos that it
was sent for. -/
theorem handshake_agreement (sha : List UInt8 → BitVec 256) {state : Handshakes}
    (hRun : HandshakeRun hmac .start state) (hMac : Set.InjOn hmac {input | state.Signed input})
    (hSha : Set.InjOn sha {input | state.Bound input}) :
    (∀ id server result, state.sessions id = some (.server server) →
      server.result sha = some result →
        ∃! other, ∃ client, state.sessions other = some (.client client) ∧
          client.localPeer = result.peer ∧ client.target = server.localPeer.id ∧
          client.listener = server.listener ∧ client.pair = some server.pair) ∧
      (∀ id client result, state.sessions id = some (.client client) →
        client.result sha = some result →
          ∃! other, ∃ server, state.sessions other = some (.server server) ∧
            server.localPeer = result.peer ∧ server.listener = client.listener ∧
            client.pair = some server.pair) ∧
      (∀ id id' session session' result result', state.sessions id = some session →
        state.sessions id' = some session' → session.result sha = some result →
        session'.result sha = some result' →
          (result.binding = result'.binding ↔ session.pair = session'.pair)) ∧
      (∀ role listener pair role' listener' pair', state.Produced role listener pair →
        state.Accepted role' listener' pair' →
        hmac (macInput role pair) = hmac (macInput role' pair') →
          role = role' ∧ listener = listener' ∧ pair = pair') := by
  have h := hRun.ordered
  refine ⟨?_, ?_, ?_, ?_⟩
  · intro id server result hServer hResult
    rw [ServerSession.result] at hResult
    split at hResult
    · next hComplete =>
        obtain rfl := Option.some.inj hResult
        exact h.client_of_server hServer hComplete
    · cases hResult
  · intro id client result hClient hResult
    rw [ClientSession.result] at hResult
    split at hResult
    · next response peer hComplete =>
        obtain rfl := Option.some.inj hResult
        exact h.server_of_client hClient hComplete
    · cases hResult
  · intro id id' session session' result result' hSession hSession' hResult hResult'
    obtain ⟨pair, hPair, hBinding⟩ := Session.pair_of_result hResult
    obtain ⟨pair', hPair', hBinding'⟩ := Session.pair_of_result hResult'
    rw [hPair, hPair', hBinding, hBinding', Option.some_inj]
    refine ⟨fun hSame => ?_, fun hSame => by rw [hSame]⟩
    have hInput : channelInput pair = channelInput pair' :=
      hSha ⟨id, session, pair, hSession, hPair, rfl⟩ ⟨id', session', pair', hSession', hPair', rfl⟩
        hSame
    exact ((h.addressed hSession).exchange hPair).channelInput_inj
      ((h.addressed hSession').exchange hPair') hInput
  · intro role listener pair role' listener' pair' hProduced hAccepted hTag
    have hProduced' := h.produced_of_accepted hAccepted
    have hInput : macInput role pair = macInput role' pair' :=
      hMac (.inr ⟨role, listener, pair, hProduced, rfl⟩)
        (.inr ⟨role', listener', pair', hProduced', rfl⟩) hTag
    exact (h.exchange_of_produced hProduced).macInput_inj (h.exchange_of_produced hProduced') hInput

/-- A tag that tells the roles of one exchange apart. -/
def roleTag (input : List UInt8) : BitVec 256 := BitVec.ofNat 256 (input.getD 25 0).toNat

theorem roleTag_macInput (role : UInt8) (pair : HelloPair) :
    roleTag (macInput role pair) = BitVec.ofNat 256 role.toNat := by
  have hByte : (macInput role pair).getD 25 0 = role := by
    rw [macInput, List.append_assoc, List.getD_append _ _ _ _ (by simp [macDomain, ascii]),
      List.getD_append_right _ _ _ _ (by decide)]
    rfl
  rw [roleTag, hByte]

/-- Two peers complete an exchange, and the server's client is found. -/
theorem handshake_agreement_exchange :
    ∃ state : Handshakes, HandshakeRun roleTag .start state ∧
      ∃ server, state.sessions 1 = some (.server server) ∧
        (server.result fun _ => 0) = some ⟨⟨7, none, true, none⟩, 0⟩ ∧
        ∃! other, ∃ client, state.sessions other = some (.client client) ∧
          client.localPeer = ⟨7, none, true, none⟩ ∧ client.target = server.localPeer.id ∧
          client.listener = server.listener ∧ client.pair = some server.pair := by
  have hFresh : ∀ nonce, Handshakes.start.Fresh nonce := fun _ _ _ h => by cases h
  obtain ⟨state, hRun, hRecords, hClient, hServer, hOther⟩ :
      ∃ after, HandshakeRun roleTag .start after ∧ _ :=
    exchange_completes rfl rfl (by decide : (1 : Nat) ≠ 0) ⟨7, none, true, none⟩
      ⟨8, none, true, none⟩ .submit (hFresh 5) (hFresh 6) (by decide)
  let pair := (completedServer ⟨7, none, true, none⟩ ⟨8, none, true, none⟩ .submit 5 6).pair
  have hPair : ∀ id session used, state.sessions id = some session → session.pair = some used →
      used = pair := by
    intro id session used hSession hUsed
    by_cases hFirst : id = 0
    · subst hFirst
      obtain rfl := Option.some.inj (hClient.symm.trans hSession)
      exact (Option.some.inj hUsed).symm
    · by_cases hSecond : id = 1
      · subst hSecond
        obtain rfl := Option.some.inj (hServer.symm.trans hSession)
        exact (Option.some.inj hUsed).symm
      · rw [hOther id hFirst hSecond] at hSession
        cases hSession
  have hSigned : ∀ input, state.Signed input → ∃ role, input = macInput role pair := by
    rintro input (⟨body, hBody, -⟩ | ⟨role, _, used, ⟨id, session, hSession, -, hEntry⟩, rfl⟩)
    · rw [hRecords] at hBody
      cases hBody
    · rw [hPair id session used hSession (Session.pair_of_produces hEntry)]
      exact ⟨role, rfl⟩
  have hMac : Set.InjOn roleTag {input | state.Signed input} := by
    intro input hInput input' hInput' hTag
    obtain ⟨role, rfl⟩ := hSigned input hInput
    obtain ⟨role', rfl⟩ := hSigned input' hInput'
    rw [roleTag_macInput, roleTag_macInput] at hTag
    have hRole := congrArg BitVec.toNat hTag
    rw [BitVec.toNat_ofNat, BitVec.toNat_ofNat, Nat.mod_eq_of_lt (by have := role.toNat_lt; omega),
      Nat.mod_eq_of_lt (by have := role'.toNat_lt; omega)] at hRole
    rw [UInt8.toNat_inj.mp hRole]
  have hSha : Set.InjOn (fun _ => 0 : List UInt8 → BitVec 256) {input | state.Bound input} := by
    rintro _ ⟨id, session, used, hSession, hUsed, rfl⟩ _ ⟨id', session', used', hSession', hUsed',
      rfl⟩ -
    rw [hPair id session used hSession hUsed, hPair id' session' used' hSession' hUsed']
  exact ⟨state, hRun, _, hServer, rfl,
    (handshake_agreement (fun _ => 0) hRun hMac hSha).1 1 _ _ hServer rfl⟩

end KeepAfloat
