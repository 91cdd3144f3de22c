import MetricWire.Proofs.Client.Lifetime
import MetricWire.Proofs.Sink.Accounting

/-!
What goes into the channel of a sink and what comes out of it.

`Channel.Leads` tells how a channel got from one state to another: what was delivered into it and what was received
from it balance, and nothing but a hang-up and the release of the sink changes who holds its ends. One step leads from
the channel before it to the channel after it, and such facts compose, so a run does too.

  1. `Channel.send_eq`, `Channel.receive_eq` — a send and a receive, by what they find.
  2. `Family.step_leads`, `Family.run_leads` — the balance of a step, and of a run.
  3. `Family.run_drain` — behind the release the queue comes out, and then the end of the channel.
  4. `queue_run` — all that holds of the channel of a new client's sink at any moment.
-/

namespace MetricWire

def Reply.reception? : Reply → Option Received
  | .received what => some what
  | _ => none

def Received.packet? : Received → Option String
  | .packet text => some text
  | _ => none

/-- The packets that the receiver got, in the order in which it got them. -/
def receivedPackets (replies : List Reply) : List String :=
  (replies.filterMap Reply.reception?).filterMap Received.packet?

theorem receivedPackets_append (a b : List Reply) :
    receivedPackets (a ++ b) = receivedPackets a ++ receivedPackets b := by
  simp only [receivedPackets, List.filterMap_append]

def Action.isReceive : Action → Bool
  | .receive => true
  | _ => false

def Action.isHangUp : Action → Bool
  | .hangUp => true
  | _ => false

/-! ## The channel alone -/

namespace Channel

/-- No more packets are queued than the channel may hold. -/
def Within (c : Channel) : Prop := ∀ n, c.capacity = some n → c.queue.length ≤ n

/-- How the channel got from one state to another: whether the receiver hung up, what could be seen, and which packets
were received meanwhile. -/
structure Leads (c c' : Channel) (hungUp : Bool) (es : List Event) (received : List String) : Prop where
  capacity : c'.capacity = c.capacity
  hasReceiver : c'.hasReceiver = (c.hasReceiver && !hungUp)
  hasSender : c'.hasSender = (c.hasSender && !es.any Event.isRelease)
  /-- What was queued and what was delivered is received or queued, in this order. -/
  balance : c'.hasReceiver = true → received ++ c'.queue = c.queue ++ es.filterMap Event.delivered?
  within : c.Within → c'.Within

variable {c : Channel}

/-- A step that delivers nothing and leaves the channel alone. -/
theorem Leads.stay {es : List Event} (hr : es.any Event.isRelease = false)
    (hd : es.filterMap Event.delivered? = []) : c.Leads c false es [] :=
  ⟨rfl, by simp, by simp [hr], fun _ => by simp [hd], id⟩

theorem Leads.trans {c' c'' : Channel} {h h' : Bool} {es es' : List Event} {ps ps' : List String}
    (first : c.Leads c' h es ps) (later : c'.Leads c'' h' es' ps') :
    c.Leads c'' (h || h') (es ++ es') (ps ++ ps') where
  capacity := later.capacity.trans first.capacity
  hasReceiver := by rw [later.hasReceiver, first.hasReceiver, Bool.not_or, Bool.and_assoc]
  hasSender := by rw [later.hasSender, first.hasSender, List.any_append, Bool.not_or, Bool.and_assoc]
  balance := by
    intro hr
    -- a receiver at the end was there in the middle
    have hmiddle : c'.hasReceiver = true := by
      rw [later.hasReceiver, Bool.and_eq_true] at hr
      exact hr.1
    calc ps ++ ps' ++ c''.queue
        = ps ++ c'.queue ++ es'.filterMap Event.delivered? := by
          rw [List.append_assoc, later.balance hr, List.append_assoc]
      _ = c.queue ++ (es ++ es').filterMap Event.delivered? := by
          rw [first.balance hmiddle, List.filterMap_append, List.append_assoc]
  within := later.within ∘ first.within

theorem isFull_iff (hw : c.Within) : c.isFull = true ↔ c.capacity = some c.queue.length := by
  unfold isFull
  cases hc : c.capacity with
  | none => simp
  | some n =>
    have hle := hw n hc
    simp only [decide_eq_true_eq, Option.some.injEq]
    omega

/-- A send by what it finds: the missing receiver comes before the full queue. -/
theorem send_eq (hw : c.Within) (packet : String) :
    c.hasReceiver = false ∧ c.send packet = (.error .channelDisconnected, c) ∨
    c.hasReceiver = true ∧ c.capacity = some c.queue.length ∧ c.send packet = (.error .channelFull, c) ∨
    c.hasReceiver = true ∧ c.capacity ≠ some c.queue.length ∧
      c.send packet = (.ok packet.utf8ByteSize, { c with queue := c.queue ++ [packet] }) := by
  have hfull := isFull_iff hw
  cases hr : c.hasReceiver with
  | false => exact .inl ⟨rfl, by simp [send, hr]⟩
  | true =>
    refine .inr ?_
    by_cases hf : c.capacity = some c.queue.length
    · exact .inl ⟨rfl, hf, by simp [send, hr, hfull.mpr hf]⟩
    · have hroom : c.isFull = false := Bool.eq_false_iff.mpr fun h => hf (hfull.mp h)
      exact .inr ⟨rfl, hf, by simp [send, hr, hroom]⟩

theorem send_fst (hw : c.Within) (packet : String) : (c.send packet).1 =
    if c.hasReceiver = false then .error (.stated .other "channel disconnected")
    else if c.capacity = some c.queue.length then .error (.stated .other "channel full")
    else .ok packet.utf8ByteSize := by
  rcases send_eq hw packet with ⟨hr, h⟩ | ⟨hr, hfull, h⟩ | ⟨hr, hroom, h⟩ <;> rw [h, hr]
  · rfl
  · rw [if_neg (by decide), if_pos hfull]
    rfl
  · rw [if_neg (by decide), if_neg hroom]

theorem send_snd_of_error (hw : c.Within) {packet : String} {e : IoError} (he : (c.send packet).1 = .error e) :
    (c.send packet).2 = c := by
  rcases send_eq hw packet with ⟨-, h⟩ | ⟨-, -, h⟩ | ⟨-, -, h⟩ <;> rw [h] at he ⊢
  cases he

/-- A receive by what it finds: the end of the channel comes behind the last packet. -/
theorem receive_eq (c : Channel) :
    (∃ packet rest, c.queue = packet :: rest ∧ c.receive = (.packet packet, { c with queue := rest })) ∨
    c.queue = [] ∧ c.receive = (if c.hasSender then .empty else .disconnected, c) := by
  unfold receive
  cases hq : c.queue with
  | nil => exact .inr ⟨rfl, rfl⟩
  | cons packet rest => exact .inl ⟨packet, rest, rfl, rfl⟩

theorem send_leads (hw : c.Within) (packet : String) :
    c.Leads (c.send packet).2 false [.emit packet (c.send packet).1] [] := by
  rcases send_eq hw packet with ⟨-, h⟩ | ⟨-, -, h⟩ | ⟨-, hroom, h⟩ <;> rw [h]
  · exact .stay rfl rfl
  · exact .stay rfl rfl
  · refine ⟨rfl, by simp, by simp [Event.isRelease], fun _ => by simp [Event.delivered?], ?_⟩
    intro _ n hn
    have hle := hw n hn
    have hne : c.queue.length ≠ n := fun h => hroom (h ▸ hn)
    rw [List.length_append, List.length_singleton]
    omega

theorem receive_leads (c : Channel) : c.Leads c.receive.2 false [] (receivedPackets [.received c.receive.1]) := by
  rcases receive_eq c with ⟨packet, rest, hq, h⟩ | ⟨hq, h⟩ <;> rw [h]
  · refine ⟨rfl, by simp, by simp, fun _ => by simp [receivedPackets, Reply.reception?, Received.packet?, hq], ?_⟩
    intro hw n hn
    have hle := hw n hn
    rw [hq, List.length_cons] at hle
    show rest.length ≤ n
    omega
  · have hnothing : receivedPackets [.received (if c.hasSender then .empty else .disconnected)] = [] := by
      cases c.hasSender <;> rfl
    rw [hnothing]
    exact .stay rfl rfl

theorem hangUp_leads (c : Channel) : c.Leads c.hangUp true [] [] :=
  ⟨rfl, by simp [hangUp], by simp [hangUp], fun h => absurd h (by simp [hangUp]), fun _ _ _ => Nat.zero_le _⟩

theorem close_leads (c : Channel) {es : List Event} (hr : es.any Event.isRelease = true)
    (hd : es.filterMap Event.delivered? = []) : c.Leads c.close false es [] :=
  ⟨rfl, by simp [close], by simp [close, hr], fun _ => by simp [close, hd], id⟩

end Channel

/-! ## One step -/

namespace Family

theorem step_reception? {f : Family} {a : Action} (ha : a.isReceive = false) :
    (f.step a).result.reception? = none := by
  cases a with
  | receive => cases ha
  | record i | close i | flush i | drop i | derive i => cases hi : f.member? i <;> simp [step, hi, Reply.reception?]
  | ask i question =>
    cases hi : f.member? i with
    | none => simp [step, hi, Reply.reception?]
    | some r => cases question <;> simp [step, hi, Reporter.answer, Reply.reception?]
  | wrap | hangUp | lookedUp => rfl

theorem receivedPackets_step {f : Family} {a : Action} (ha : a.isReceive = false) :
    receivedPackets [(f.step a).result] = [] := by
  simp [receivedPackets, step_reception? ha]

theorem step_receive {f : Family} {c : Channel} {t : Telemetry} (hs : f.hub.sink = .channel c t) :
    f.step .receive = ⟨.received c.receive.1, f.withSink (.channel c.receive.2 t), []⟩ := by
  simp only [step, receive, hs]

theorem step_hangUp {f : Family} {c : Channel} {t : Telemetry} (hs : f.hub.sink = .channel c t) :
    f.step .hangUp = ⟨.outcome (.ok ()), f.withSink (.channel c.hangUp t), []⟩ := by
  simp only [step, hangUp, hs]

theorem step_lookedUp_channel {f : Family} {c : Channel} {t : Telemetry} (hs : f.hub.sink = .channel c t)
    (outcome : Except MetricError SocketAddress) : f.step (.lookedUp outcome) = ⟨.outcome (.ok ()), f, []⟩ := by
  simp only [step, lookedUp, hs]

theorem Effect.leads {f : Family} {a : Action} {h : Hub} {es : List Event} {c : Channel} {t : Telemetry}
    (e : f.Effect a h es) (hs : f.hub.sink = .channel c t) (hw : c.Within) (ha : a.member? ≠ none) :
    ∃ c' t', h.sink = .channel c' t' ∧ c.Leads c' false es [] := by
  rcases e.sink_cases (by rw [hs]; rfl) ha with ⟨hsink, hd, hr⟩ | ⟨rate, packet, hsink, rfl⟩ | ⟨hsink, hd, hr⟩ <;>
    rw [hs] at hsink
  · exact ⟨c, t, hsink, .stay hr hd⟩
  · rw [hs]
    have hquery : c.Leads c false [.query rate true] [] := .stay rfl rfl
    exact ⟨_, _, hsink, hquery.trans (Channel.send_leads hw packet)⟩
  · exact ⟨_, _, hsink, c.close_leads hr hd⟩

theorem step_leads {f : Family} {c : Channel} {t : Telemetry} (hs : f.hub.sink = .channel c t) (hw : c.Within)
    (a : Action) : ∃ c' t', (f.step a).state.hub.sink = .channel c' t' ∧
      c.Leads c' a.isHangUp (f.step a).events (receivedPackets [(f.step a).result]) := by
  cases ha : a.member? with
  | none =>
    cases a <;> cases ha
    · rw [step_receive hs]
      exact ⟨_, t, rfl, c.receive_leads⟩
    · rw [step_hangUp hs]
      exact ⟨_, t, rfl, c.hangUp_leads⟩
    · rw [step_lookedUp_channel hs]
      exact ⟨c, t, hs, .stay rfl rfl⟩
  | some i =>
    have hmember : a.isReceive = false ∧ a.isHangUp = false := by cases a <;> cases ha <;> exact ⟨rfl, rfl⟩
    rw [receivedPackets_step hmember.1, hmember.2]
    exact (f.step_effect a).leads hs hw (by simp [ha])

/-! ## A whole run -/

theorem run_leads {f : Family} {c : Channel} {t : Telemetry} (hs : f.hub.sink = .channel c t) (hw : c.Within)
    (actions : List Action) : ∃ c' t', (f.run actions).state.hub.sink = .channel c' t' ∧
      c.Leads c' (actions.any Action.isHangUp) (f.run actions).events (receivedPackets (f.run actions).result) := by
  induction actions generalizing f c t with
  | nil => exact ⟨c, t, hs, .stay rfl rfl⟩
  | cons a rest ih =>
    obtain ⟨c', t', hs', hstep⟩ := step_leads hs hw a
    obtain ⟨c'', t'', hs'', hrest⟩ := ih hs' (hstep.within hw)
    have hreplies : receivedPackets (f.run (a :: rest)).result =
        receivedPackets [(f.step a).result] ++ receivedPackets ((f.step a).state.run rest).result :=
      receivedPackets_append [_] _
    refine ⟨c'', t'', hs'', ?_⟩
    rw [hreplies]
    exact hstep.trans hrest

/-- When the sink was released, the receiver gets what is queued, and from then on it is told of the end. -/
theorem run_drain {f : Family} {c : Channel} {t : Telemetry} (hb : f.Balanced) (hd : f.hub.isAlive = false)
    (hs : f.hub.sink = .channel c t) (hw : c.Within) (hreceiver : c.hasReceiver = true)
    (hsender : c.hasSender = false) {later : List Action} (hl : later.any Action.isHangUp = false) :
    (f.run later).result.filterMap Reply.reception? =
      (c.queue.map Received.packet).take (later.countP Action.isReceive) ++
        List.replicate (later.countP Action.isReceive - c.queue.length) .disconnected := by
  induction later generalizing f c t with
  | nil => simp [run]
  | cons a rest ih =>
    rw [List.any_cons, Bool.or_eq_false_iff] at hl
    obtain ⟨hhangUp, hlater⟩ := hl
    obtain ⟨c', t', hs', hstep⟩ := step_leads hs hw a
    -- behind the release nothing is delivered any more
    have hunused := (f.step_effect a).unused hb hd
    have hdelivered : (f.step a).events.filterMap Event.delivered? = [] := by
      refine List.filterMap_eq_nil_iff.mpr fun e he => ?_
      have hno := hunused e he
      cases e <;> first | rfl | cases hno
    have hreceiver' : c'.hasReceiver = true := by rw [hstep.hasReceiver, hreceiver, hhangUp]; rfl
    have hsender' : c'.hasSender = false := by rw [hstep.hasSender, hsender]; rfl
    have hbalance := hstep.balance hreceiver'
    rw [hdelivered, List.append_nil] at hbalance
    have hrest := ih (hb.step a) ((f.step_effect a).isAlive_eq_false hb (.inl hd)) hs' (hstep.within hw) hreceiver'
      hsender' hlater
    show ((f.step a).result :: ((f.step a).state.run rest).result).filterMap Reply.reception? = _
    cases hreceive : a.isReceive with
    | false =>
      rw [receivedPackets_step hreceive, List.nil_append] at hbalance
      rw [List.filterMap_cons_none (step_reception? hreceive), hrest, hbalance,
        List.countP_cons_of_neg (by simp [hreceive])]
    | true =>
      cases a <;> cases hreceive
      have hreply : (f.step .receive).result.reception? = some c.receive.1 := by rw [step_receive hs]; rfl
      rw [step_receive hs] at hs'
      obtain rfl : c.receive.2 = c' := (Sink.channel.inj hs').1
      rw [List.filterMap_cons_some hreply, hrest, List.countP_cons_of_pos rfl]
      rcases c.receive_eq with ⟨packet, queue, hq, hfound⟩ | ⟨hq, hfound⟩
      · -- one packet less
        rw [hfound, hq]
        simp
      · rw [hfound, hq, hsender]
        simp [List.replicate_succ]

end Family

/-! ## Any moment of any run -/

/-- What holds of the channel of a new client's sink at every moment: `hungUp` says whether the receiver went away,
`past` is all that could be seen so far, and `replies` all that was answered. -/
structure QueueKept (f : Family) (c : Channel) (capacity : Option Nat) (hungUp : Bool) (past : List Event)
    (replies : List Reply) : Prop where
  /-- What was received, and behind it what is queued, are the packets that the sink took. -/
  conserved : hungUp = false → receivedPackets replies ++ c.queue = past.filterMap Event.delivered?
  bounded : ∀ n, capacity = some n → c.queue.length ≤ n
  /-- An emit fails without a receiver, and else when a bounded channel is full. -/
  emit_outcome : ∀ a packet outcome, .emit packet outcome ∈ (f.step a).events → outcome =
    if hungUp then .error (.stated .other "channel disconnected")
    else if capacity = some c.queue.length then .error (.stated .other "channel full")
    else .ok packet.utf8ByteSize
  /-- A failed emit leaves the channel as it was. -/
  emit_failed : ∀ a packet e, .emit packet (.error e) ∈ (f.step a).events →
    ∃ t, (f.step a).state.hub.sink = .channel c t
  /-- A channel without room takes no packet. -/
  no_room : capacity = some 0 → ∀ a packet outcome, .emit packet outcome ∈ (f.step a).events → ∃ e, outcome = .error e
  /-- The receiver is told of the end when the sink was released and nothing is queued. -/
  receive : hungUp = false → (f.step .receive).result = .received (match c.queue with
    | packet :: _ => .packet packet
    | [] => if past.any Event.isRelease then .disconnected else .empty)
  /-- Behind the release all that is queued is received first, whatever is done with the members meanwhile. -/
  drain : hungUp = false → past.any Event.isRelease = true → ∀ later, later.any Action.isHangUp = false →
    (f.run later).result.filterMap Reply.reception? =
      (c.queue.map Received.packet).take (later.countP Action.isReceive) ++
        List.replicate (later.countP Action.isReceive - c.queue.length) .disconnected

/-- **The queue of a channel.** At every moment of every run of the family of a new client that writes to a channel,
bounded or not, the packets that were received and those that are queued are the packets that the sink took, as long
as the receiver lives. -/
theorem queue_run (scope : String) (capacity : Option Nat) (options : ClientOptions) (actions : List Action) :
    let turn := (Family.ofClient scope (.ofCapacity capacity) options).run actions
    ∃ c t, turn.state.hub.sink = .channel c t ∧
      QueueKept turn.state c capacity (actions.any Action.isHangUp) turn.events turn.result := by
  intro turn
  let start := Family.ofClient scope (.ofCapacity capacity) options
  have hstart : start.Balanced := Family.balanced_ofClient scope (.ofCapacity capacity) options
  have hempty : Channel.Within { capacity := capacity } := fun _ _ => Nat.zero_le _
  obtain ⟨c, t, hs, hleads⟩ := Family.run_leads (f := start) rfl hempty actions
  refine ⟨c, t, hs, ?_⟩
  have hw : c.Within := hleads.within hempty
  have hcapacity : c.capacity = capacity := hleads.capacity
  have hreceiver : c.hasReceiver = !actions.any Action.isHangUp := hleads.hasReceiver
  have hsender : c.hasSender = !turn.events.any Event.isRelease := hleads.hasSender
  have hconserved : actions.any Action.isHangUp = false →
      receivedPackets turn.result ++ c.queue = turn.events.filterMap Event.delivered? := by
    intro hh
    exact hleads.balance (by rw [hreceiver, hh]; rfl)
  have hemit : ∀ {a packet outcome}, .emit packet outcome ∈ (turn.state.step a).events →
      (c.send packet).1 = outcome ∧ ∃ t', (turn.state.step a).state.hub.sink = .channel (c.send packet).2 t' := by
    intro a packet outcome he
    have hsend := (turn.state.step_effect a).of_emit he
    rw [hs] at hsend
    obtain ⟨houtcome, hsink⟩ := Prod.mk.inj hsend
    exact ⟨houtcome, _, hsink.symm⟩
  have houtcome : ∀ a packet outcome, .emit packet outcome ∈ (turn.state.step a).events → outcome =
      if actions.any Action.isHangUp then .error (.stated .other "channel disconnected")
      else if capacity = some c.queue.length then .error (.stated .other "channel full")
      else .ok packet.utf8ByteSize := by
    intro a packet outcome he
    rw [← (hemit he).1, Channel.send_fst hw, hcapacity, hreceiver]
    simp only [Bool.not_eq_eq_eq_not, Bool.not_false]
  constructor
  case conserved => exact hconserved
  case bounded => exact fun n hn => hw n (hcapacity.trans hn)
  case emit_outcome => exact houtcome
  case emit_failed =>
    intro a packet e he
    obtain ⟨hfailed, t', hsink⟩ := hemit he
    exact ⟨t', by rw [hsink, Channel.send_snd_of_error hw hfailed]⟩
  case no_room =>
    intro hzero a packet outcome he
    have hqueue : c.queue.length = 0 := Nat.le_zero.mp (hw 0 (hcapacity.trans hzero))
    rw [houtcome a packet outcome he, hzero, hqueue, if_pos rfl]
    split <;> exact ⟨_, rfl⟩
  case receive =>
    intro _
    rw [Family.step_receive hs]
    rcases c.receive_eq with ⟨packet, rest, hq, h⟩ | ⟨hq, h⟩ <;> rw [h, hq]
    rw [hsender]
    cases turn.events.any Event.isRelease <;> rfl
  case drain =>
    intro hh hr later hl
    have hledger : turn.events.countP Event.isRelease + turn.state.hub.isAlive.toNat = 1 :=
      Family.run_releases hstart actions
    have hdead : turn.state.hub.isAlive = false := by
      obtain ⟨e, he, hrelease⟩ := List.any_eq_true.mp hr
      have hone : 0 < turn.events.countP Event.isRelease := List.countP_pos_iff.mpr ⟨e, he, hrelease⟩
      exact Bool.toNat_eq_zero.mp (by omega)
    exact Family.run_drain (hstart.run actions) hdead hs hw (by rw [hreceiver, hh]; rfl) (by rw [hsender, hr]; rfl) hl

/-- One packet fits; behind the close it is received, and then the end of the channel. -/
example : (((Family.ofClient "" (.ofCapacity (some 1)) {}).run
    [.record 0 ⟨"a", .increment 1, .one, []⟩, .record 0 ⟨"b", .increment 2, .one, []⟩, .close 0, .receive,
      .receive]).result.filterMap Reply.reception?) = [.packet "a:1|c", .disconnected] := by
  decide +kernel

end MetricWire
