/-
What `MqttClient` writes on the socket of a session before the broker has
acknowledged it. The IO thread writes the CONNECT and nothing else until it has
read CONNACK(0). A call looks at `connected` first and at `_sock` later, and
the session it has seen connected may be over by then: it then writes on the
socket of the next one, where that has been opened (`connect_first`).
-/
import RetailVision.MqttClient

set_option linter.all false

namespace RetailVision.MqttClient

open Lib

/-- **What may be on a socket**: the first packet is the session's CONNECT, and
a PUBLISH or SUBSCRIBE comes after CONNACK(0). -/
def Lawful (c : Settings) (l : List Event) : Prop :=
  ∀ pre pkt post, l = pre ++ .wrote pkt :: post →
    ((∀ p, .wrote p ∉ pre) → encodeConnect c = .ok pkt) ∧
    (ptype pkt = 3 ∨ ptype pkt = 8 → .connack 0 ∈ pre)

/-- A socket on which anything may be written. -/
structure Established (c : Settings) (l : List Event) : Prop where
  lawful : Lawful c l
  begun : ∃ pkt, .wrote pkt ∈ l
  acknowledged : .connack 0 ∈ l

/-- The socket a step finds in `_sock`. -/
def State.finds (s : State) : Action → Option Nat
  | .call _ .readSock => s.sock
  | _ => none

/-- Where a call reads `_sock`, the session of the socket it finds has been acknowledged. -/
def ReadsAcknowledged (s : State) (a : Action) : Prop := ∀ k ∈ s.finds a, .connack 0 ∈ s.log k

instance (s : State) (a : Action) : Decidable (ReadsAcknowledged s a) :=
  inferInstanceAs (Decidable (∀ k ∈ s.finds a, .connack 0 ∈ s.log k))

variable {c : Settings} {s s' : State} {a : Action} {as : List Action} {l pre post : List Event} {e : Event} {pkt : Bytes} {k t : Nat}

/-! ## Lawful sockets -/

theorem Lawful.nil : Lawful c [] := by
  intro pre pkt post h
  simp at h

/-- What may come next. -/
theorem Lawful.snoc (hl : Lawful c l) (hfirst : ∀ pkt, e = .wrote pkt → (∀ p, .wrote p ∉ l) → encodeConnect c = .ok pkt)
    (hlater : ∀ pkt, e = .wrote pkt → ptype pkt = 3 ∨ ptype pkt = 8 → .connack 0 ∈ l) : Lawful c (l ++ [e]) := by
  intro pre pkt post h
  obtain hpost | ⟨post', x, rfl⟩ := List.eq_nil_or_concat post
  · subst hpost
    obtain ⟨rfl, he⟩ := List.append_inj' h rfl
    have he : e = .wrote pkt := List.head_eq_of_cons_eq he
    exact ⟨hfirst pkt he, hlater pkt he⟩
  · rw [List.concat_eq_append, ← List.cons_append, ← List.append_assoc] at h
    exact hl pre pkt post' (List.append_inj' h rfl).1

theorem Lawful.connack (hl : Lawful c l) (rc : UInt8) : Lawful c (l ++ [.connack rc]) :=
  hl.snoc (fun _ h => by cases h) fun _ h => by cases h

/-- The CONNECT is written first. -/
theorem Lawful.connect (h : encodeConnect c = .ok pkt) : Lawful c [.wrote pkt] := by
  refine @Lawful.snoc c [] (.wrote pkt) .nil ?_ ?_
  · intro p he _
    cases he
    exact h
  · intro p he htype
    cases he
    rw [ptype_connect h] at htype
    exact absurd htype (by decide)

theorem Established.snoc (hl : Established c l) (e : Event) : Established c (l ++ [e]) where
  lawful := by
    obtain ⟨p, hp⟩ := hl.begun
    exact hl.lawful.snoc (fun _ _ hno => absurd hp (hno p)) fun _ _ _ => hl.acknowledged
  begun := hl.begun.imp fun _ hp => List.mem_append_left _ hp
  acknowledged := List.mem_append_left _ hl.acknowledged

/-- A socket stays established, whatever happens on which one. -/
theorem Established.happens {j : Nat} (hj : Established c (s.log j)) (k : Nat) (e : Event) : Established c ((s.happens k e).log j) := by
  by_cases hjk : j = k
  · subst hjk
    rw [show (s.happens j e).log j = s.log j ++ [e] from Function.update_self ..]
    exact hj.snoc e
  · rw [show (s.happens k e).log j = s.log j from Function.update_of_ne hjk ..]
    exact hj

/-! ## Every step -/

/-- What is on the socket of a session, where the IO thread is. -/
def Io.Sound (c : Settings) (s : State) : Io → Prop
  | .opened k => s.sock = some k ∧ k < s.sockets ∧ s.log k = []
  | .awaitingConnack k => s.sock = some k ∧ k < s.sockets ∧ ∃ pkt, encodeConnect c = .ok pkt ∧ s.log k = [.wrote pkt]
  | .acknowledged k | .connected k | .resubscribing k _ | .awaitingSuback k _ | .traffic k =>
    s.sock = some k ∧ k < s.sockets ∧ Established c (s.log k)
  | _ => True

structure Inv (c : Settings) (s : State) : Prop where
  fresh : ∀ k, s.sockets ≤ k → s.log k = []
  sock : ∀ k, s.sock = some k → k < s.sockets
  lawful : ∀ k, Lawful c (s.log k)
  begun : ∀ k, .connack 0 ∈ s.log k → ∃ pkt, .wrote pkt ∈ s.log k
  io : s.io.Sound c s
  writing : ∀ t r pid pkt k, s.calls t = .writing r pid pkt k → k < s.sockets ∧ Established c (s.log k)

theorem Inv.established (hi : Inv c s) (hk : .connack 0 ∈ s.log k) : Established c (s.log k) := ⟨hi.lawful k, hi.begun k hk, hk⟩

theorem start_inv : Inv c start where
  fresh _ _ := rfl
  sock _ h := by cases h
  lawful _ := .nil
  begun _ h := by cases h
  io := trivial
  writing _ _ _ _ _ h := by cases h

/-- Something happens on a socket, and the IO thread goes on. -/
theorem Inv.happens_io (hi : Inv c s) (hk : k < s.sockets) (hlawful : Lawful c (s.log k ++ [e]))
    (hbegun : .connack 0 ∈ s.log k ++ [e] → ∃ pkt, .wrote pkt ∈ s.log k ++ [e]) {io : Io} (hio : io.Sound c (s.happens k e)) :
    Inv c { s.happens k e with io := io } := by
  have hself : (s.happens k e).log k = s.log k ++ [e] := Function.update_self ..
  have hne : ∀ {j}, j ≠ k → (s.happens k e).log j = s.log j := fun hj => Function.update_of_ne hj ..
  constructor
  case fresh =>
    intro j hj
    rw [hne (Nat.ne_of_gt (Nat.lt_of_lt_of_le hk hj))]
    exact hi.fresh j hj
  case sock => exact hi.sock
  case lawful =>
    intro j
    by_cases hjk : j = k
    · subst hjk
      rw [hself]
      exact hlawful
    · rw [hne hjk]
      exact hi.lawful j
  case begun =>
    intro j hj
    by_cases hjk : j = k
    · subst hjk
      rw [hself] at hj ⊢
      exact hbegun hj
    · rw [hne hjk] at hj ⊢
      exact hi.begun j hj
  case io => cases io <;> exact hio
  case writing =>
    intro t r pid pkt j hw
    obtain ⟨hlt, hj⟩ := hi.writing t r pid pkt j hw
    exact ⟨hlt, hj.happens k e⟩

/-- Something happens on an established socket. -/
theorem Inv.happens (hi : Inv c s) (hk : k < s.sockets) (he : Established c (s.log k)) (e : Event) : Inv c (s.happens k e) := by
  have hne : ∀ {j}, j ≠ k → (s.happens k e).log j = s.log j := fun hj => Function.update_of_ne hj ..
  refine @Inv.happens_io c s e k hi hk (he.snoc e).lawful (fun _ => (he.snoc e).begun) s.io ?_
  have hio := hi.io
  show s.io.Sound c (s.happens k e)
  cases hs : s.io with
  | opened j =>
    rw [hs] at hio
    obtain ⟨hsock, hlt, hlog⟩ := hio
    have hjk : j ≠ k := by
      rintro rfl
      obtain ⟨p, hp⟩ := he.begun
      rw [hlog] at hp
      cases hp
    exact ⟨hsock, hlt, (hne hjk).trans hlog⟩
  | awaitingConnack j =>
    rw [hs] at hio
    obtain ⟨hsock, hlt, p, hp, hlog⟩ := hio
    have hjk : j ≠ k := by
      rintro rfl
      have hack := he.acknowledged
      rw [hlog] at hack
      simp at hack
    exact ⟨hsock, hlt, p, hp, (hne hjk).trans hlog⟩
  | acknowledged j | connected j | resubscribing j _ | awaitingSuback j _ | traffic j =>
    rw [hs] at hio
    exact ⟨hio.1, hio.2.1, hio.2.2.happens k e⟩
  | _ => trivial

/-- A state with the same sockets, and no one else to write. -/
theorem Inv.same (hi : Inv c s) (hsock : s'.sock = s.sock) (hsockets : s'.sockets = s.sockets) (hio : s'.io = s.io)
    (hlog : s'.log = s.log)
    (hwriting : ∀ t r pid pkt k, s'.calls t = .writing r pid pkt k → k < s.sockets ∧ Established c (s.log k)) : Inv c s' := by
  constructor
  case fresh => rw [hsockets, hlog]; exact hi.fresh
  case sock => rw [hsock, hsockets]; exact hi.sock
  case lawful => rw [hlog]; exact hi.lawful
  case begun => rw [hlog]; exact hi.begun
  case io =>
    have h := hi.io
    rw [hio]
    cases hs : s.io with
    | opened k | awaitingConnack k | acknowledged k | connected k | resubscribing k _ | awaitingSuback k _ | traffic k =>
      rw [hs] at h
      simp only [Io.Sound, hsock, hsockets, hlog] at h ⊢
      exact h
    | _ => trivial
  case writing => rw [hsockets, hlog]; exact hwriting

theorem Inv.stepCall (hi : Inv c s) {t : Nat} {a : CallAction} (hr : ReadsAcknowledged s (.call t a)) (hs : stepCall c s t a = some s') : Inv c s' := by
  have hf := stepCall_frame hs
  have hwriting : ∀ t r pid pkt k, s'.calls t = .writing r pid pkt k → k < s.sockets ∧ Established c (s.log k) := by
    intro t r pid pkt k hw
    obtain hw | ⟨rfl, hk⟩ := hf.writing t r pid pkt k hw
    · exact hi.writing t r pid pkt k hw
    · exact ⟨hi.sock k hk, hi.established (hr k hk)⟩
  obtain hlog | ⟨t, r, pid, pkt, k, hw, hlog⟩ := hf.log
  · exact hi.same hf.sock hf.sockets hf.io hlog hwriting
  · obtain ⟨hk, he⟩ := hi.writing t r pid pkt k hw
    refine (hi.happens hk he (.wrote pkt)).same hf.sock hf.sockets hf.io hlog fun u r' pid' pkt' j hw' => ?_
    obtain ⟨hj, hest⟩ := hwriting u r' pid' pkt' j hw'
    exact ⟨hj, hest.happens k _⟩

/-- The IO thread goes on, the sockets being as they were. -/
theorem Inv.goes (hi : Inv c s) {io : Io} {closed : Nat → Bool} {connected : Bool} {inflight : Dict Nat Nat} {toResolve : List (Nat × Bool)}
    (hio : io.Sound c s) : Inv c
      { s with io := io, closed := closed, connected := connected, inflight := inflight, toResolve := toResolve } where
  fresh := hi.fresh
  sock := hi.sock
  lawful := hi.lawful
  begun := hi.begun
  io := by cases io <;> exact hio
  writing := hi.writing

/-- The IO thread writes a packet on the established socket of its session, and goes on. -/
theorem Inv.writeIo (hi : Inv c s) {ok : Bool} {io : Io} (hk : s.sock = some k ∧ k < s.sockets ∧ Established c (s.log k))
    (hio : io.Sound c (s.happens k (.wrote pkt))) (hs : s.writeIo k pkt ok io = some s') : Inv c s' := by
  obtain ⟨-, hlt, he⟩ := hk
  simp only [State.writeIo] at hs
  split at hs
  · split at hs <;> cases hs
    exact (hi.happens hlt he (.wrote pkt)).goes hio
  · cases hs
    exact hi.goes trivial

theorem Inv.stepIo (hi : Inv c s) {a : IoAction} (hs : stepIo c s a = some s') : Inv c s' := by
  have hsound := hi.io
  cases a <;> simp only [MqttClient.stepIo] at hs
  case loop =>
    split at hs <;> cases hs
    refine hi.goes ?_
    split <;> trivial
  case connect ok =>
    split at hs
    · split at hs <;> cases hs
      · constructor
        case fresh => exact fun j hj => hi.fresh j (Nat.le_of_succ_le hj)
        case sock =>
          intro j hj
          cases hj
          exact Nat.lt_succ_self s.sockets
        case lawful => exact hi.lawful
        case begun => exact hi.begun
        case io => exact ⟨rfl, Nat.lt_succ_self s.sockets, hi.fresh s.sockets (Nat.le_refl _)⟩
        case writing =>
          intro t r pid pkt j hw
          obtain ⟨hj, hest⟩ := hi.writing t r pid pkt j hw
          exact ⟨Nat.lt_succ_of_lt hj, hest⟩
      · exact hi.goes trivial
    · cases hs
  case sendConnect ok =>
    split at hs
    · next k hk =>
      rw [hk] at hsound
      obtain ⟨hsock, hlt, hlog⟩ := hsound
      split at hs
      · cases hs
        exact hi.goes trivial
      · next pkt hpkt =>
        simp only [State.writeIo] at hs
        split at hs
        · split at hs <;> cases hs
          have hself : (s.happens k (.wrote pkt)).log k = [.wrote pkt] := by
            rw [show (s.happens k (.wrote pkt)).log k = s.log k ++ [.wrote pkt] from Function.update_self .., hlog, List.nil_append]
          refine hi.happens_io hlt ?_ (fun _ => ⟨pkt, by simp⟩) ⟨hsock, hlt, pkt, hpkt, hself⟩
          rw [hlog]
          exact .connect hpkt
        · cases hs
          exact hi.goes trivial
    · cases hs
  case readConnack body =>
    split at hs
    · next k hk =>
      rw [hk] at hsound
      obtain ⟨hsock, hlt, pkt, hpkt, hlog⟩ := hsound
      cases hs
      have hwrote : .wrote pkt ∈ s.log k := by simp [hlog]
      have hlawful := (hi.lawful k).connack (body.getD 1 1)
      refine hi.happens_io hlt hlawful (fun _ => ⟨pkt, List.mem_append_left _ hwrote⟩) ?_
      split
      · next hrc =>
        refine ⟨hsock, hlt, ?_⟩
        rw [show (s.happens k (.connack (body.getD 1 1))).log k = s.log k ++ [.connack (body.getD 1 1)] from Function.update_self ..]
        exact ⟨hlawful, ⟨pkt, List.mem_append_left _ hwrote⟩, List.mem_append_right _ (hrc ▸ List.mem_singleton_self _)⟩
      · trivial
    · cases hs
  case setConnected =>
    split at hs <;> cases hs
    next k hk =>
    rw [hk] at hsound
    exact hi.goes hsound
  case takeSubs =>
    split at hs <;> cases hs
    next k hk =>
    rw [hk] at hsound
    exact hi.goes hsound
  case resubscribe pid ok =>
    split at hs
    · next k e todo hk =>
      rw [hk] at hsound
      split at hs
      · split at hs
        · cases hs
          exact hi.goes trivial
        · refine hi.writeIo hsound ?_ hs
          exact ⟨hsound.1, hsound.2.1, hsound.2.2.happens k _⟩
      · cases hs
    · cases hs
  case enterTraffic =>
    split at hs <;> cases hs
    next k hk =>
    rw [hk] at hsound
    exact hi.goes hsound
  case readSuback rc =>
    split at hs <;> cases hs
    next k todo hk =>
    rw [hk] at hsound
    refine hi.goes ?_
    split
    · trivial
    · exact hsound
  case ping ok =>
    split at hs
    · next k hk =>
      rw [hk] at hsound
      refine hi.writeIo hsound ?_ hs
      exact ⟨hsound.1, hsound.2.1, hsound.2.2.happens k _⟩
    · cases hs
  case puback pid =>
    split at hs
    · split at hs <;> cases hs
      · exact hi.goes hsound
      · exact hi
    · cases hs
  case replyPuback pid ok =>
    split at hs
    · next j k hj hk =>
      have hest : k < s.sockets ∧ Established c (s.log k) := by
        cases hio : s.io <;> rw [hio] at hj hsound <;> cases hj
        all_goals
          obtain ⟨hsock, hlt, he⟩ := hsound
          cases hk.symm.trans hsock
          exact ⟨hlt, he⟩
      split at hs
      · split at hs <;> cases hs
        exact hi.happens hest.1 hest.2 _
      · cases hs
        exact hi
    · cases hs
  case sessionFails =>
    split at hs <;> cases hs
    exact hi.goes trivial
  case closeSock =>
    split at hs <;> cases hs
    exact hi.goes trivial
  case clearSock =>
    split at hs <;> cases hs
    refine ⟨hi.fresh, fun j hj => (by cases hj), hi.lawful, hi.begun, ?_, hi.writing⟩
    dsimp only
    split <;> trivial
  case sessionOver =>
    split at hs <;> cases hs
    refine hi.goes ?_
    split <;> trivial
  case clearConnected =>
    split at hs <;> cases hs
    exact hi.goes trivial
  case failInflight =>
    split at hs <;> cases hs
    exact hi.goes trivial
  case backOff =>
    split at hs <;> cases hs
    refine hi.goes ?_
    split <;> trivial

theorem Inv.resolve (hi : Inv c s) (hs : s.resolve = some s') : Inv c s' := by
  simp only [State.resolve] at hs
  split at hs <;> cases hs
  exact hi.same rfl rfl rfl rfl hi.writing

theorem step_inv (s : State) (a : Action) (s' : State) (hr : ReadsAcknowledged s a) (hi : Inv c s) (hs : step c s a = some s') :
    Inv c s' := by
  cases a with
  | call t a => exact hi.stepCall hr hs
  | unsubscribe topicFilter =>
    cases hs
    exact hi.same rfl rfl rfl rfl hi.writing
  | io a =>
    simp only [step] at hs
    split at hs
    · exact hi.stepIo hs
    · cases hs
  | resolve => exact hi.resolve hs

/-- **The first packet on every socket is its session's CONNECT, and no PUBLISH
or SUBSCRIBE comes before CONNACK(0)**, in every run where a call that reads
`_sock` finds none or the socket of a session that has been acknowledged. -/
theorem connect_first (hm : Meets (step c) ReadsAcknowledged start as) (hr : run (step c) start as = some s) :
    ∀ k, Lawful c (s.log k) :=
  (run_invariant step_inv hm start_inv hr).lawful

def camera : Settings where
  clientId := [0x63, 0x61, 0x6D]
  username := []
  password := []
  keepaliveS := 30
  will := none
  maxInflight := 32

/-- The IO thread opens a socket, -/
def opens : List Action := [.io .loop, .io (.connect true)]

/-- comes to the traffic of its session, -/
def acknowledged : List Action := [.io (.sendConnect true), .io (.readConnack [0, 0]), .io .setConnected, .io .takeSubs, .io .enterTraffic]

/-- and loses it. -/
def loses : List Action := 
  [.sessionFails, .closeSock, .clearSock, .sessionOver, .clearConnected, .failInflight, .backOff].map .io

def online : Request := .publish [0x6F, 0x6E] [0x31] 0 false

/-- A call sees the client connected, -/
def seesConnected : List Action := [.call 0 (.begin online), .call 0 .check, .call 0 .encode]

/-- and writes. -/
def writes : List Action := [.call 0 .readSock, .call 0 (.write true)]

theorem connect_first_next_session : ∃ s, run (step camera) start (opens ++ acknowledged ++ seesConnected ++ loses ++ opens ++ acknowledged ++ writes) = some s ∧
    (s.log 1).length = 3 ∧ Lawful camera (s.log 1) := by
  have hm : Meets (step camera) ReadsAcknowledged start
      (opens ++ acknowledged ++ seesConnected ++ loses ++ opens ++ acknowledged ++ writes) := by decide
  exact ⟨_, rfl, rfl, connect_first hm rfl 1⟩

/-- The call writes on the socket of the next session before its CONNECT. -/
theorem not_connect_first : ∃ s, run (step camera) start (opens ++ acknowledged ++ seesConnected ++ loses ++ opens ++ writes) = some s ∧
    ¬ Lawful camera (s.log 1) := by
  refine ⟨_, rfl, fun h => ?_⟩
  have hack := (h [] _ [] rfl).2 (.inl rfl)
  cases hack

end RetailVision.MqttClient
