import MetricWire.Proofs.Client.Inactive

/-!
Options are transparent. Two families with the same hub that differ only in how many options are around their
clients are alike: every action is answered alike, leaves the same trace, and leaves the families alike. The argument
erases the options (`Roster.clients`) and never looks at what the hub does.

  1. `Roster.clients_after` — which clients there are after an action follows from which there were.
  2. `Family.Alike.step` — one action, and `Family.Alike.run` — a whole run.
  3. `options_transparent` — nested options around a member, and nested options with nothing inside.
-/

namespace MetricWire

def Client.ended : Client → Client
  | active _ => closed
  | c => c

/-- The reporter inside so many options. -/
def Reporter.nest (r : Reporter) : Nat → Reporter
  | 0 => r
  | n + 1 => wrapped (r.nest n)

namespace Reporter

@[simp] theorem inside_nest (r : Reporter) : ∀ n, (r.nest n).inside = r.inside
  | 0 => rfl
  | n + 1 => inside_nest r n

theorem inside_closed_eq : ∀ r : Reporter, r.closed.inside = r.inside.ended
  | client (.active _) => rfl
  | client .absent => rfl
  | client .closed => rfl
  | vacant => rfl
  | wrapped r => inside_closed_eq r

theorem answer_eq (r : Reporter) (h : Hub) (question : Question) :
    r.answer h question = (client r.inside).answer h question := by
  cases question with
  | isActive => exact congrArg Reply.flag r.isActive_eq
  | scope | tagFormat | telemetry | describe => rfl

/-- The least integer is an error of active reporters, and nothing is seen of it outside. -/
theorem record_decrement_least (r : Reporter) (h : Hub) (key : String) (rate : Binary32) (tags : List Tag) :
    r.record h ⟨key, .decrement Int64.minValue, rate, tags⟩ =
      ⟨if r.isActive then .error (.rejected .decrementOverflow) else .ok (), h, []⟩ := rfl

end Reporter

namespace Roster
variable {m m' : Roster}

/-- The clients of a roster, without the options around them. -/
def clients (m : Roster) : List (Option Client) := m.map (·.map Reporter.inside)

theorem clients_modify {g : Reporter → Reporter} {c : Client → Client} (h : ∀ r, (g r).inside = c r.inside)
    (m : Roster) (i : Nat) :
    clients (m.modify i (·.map g)) = (clients m).modify i (·.map c) := by
  apply List.ext_getElem?
  intro j
  simp only [clients, List.getElem?_map, List.getElem?_modify]
  split
  · cases m[j]? with
    | none => rfl
    | some o => cases o <;> simp [h]
  · simp

theorem clients_set (m : Roster) (i : Nat) (o : Option Reporter) :
    clients (m.set i o) = (clients m).set i (o.map Reporter.inside) := List.map_set ..

theorem clients_member? (h : m.clients = m'.clients) (i : Nat) :
    (m.member? i).map Reporter.inside = (m'.member? i).map Reporter.inside := by
  have hi : (clients m)[i]? = (clients m')[i]? := by rw [h]
  simp only [clients, List.getElem?_map] at hi
  unfold member?
  cases hm : m[i]? <;> cases hm' : m'[i]? <;> simp_all

/-- Which clients there are after an action follows from which there were. -/
theorem clients_after (h : m.clients = m'.clients) (a : Action) : (m.after a).clients = (m'.after a).clients := by
  cases a with
  | close i => simp only [after, clients_modify Reporter.inside_closed_eq, h]
  | wrap i => simp only [after, clients_modify (c := id) Reporter.inside_wrap, h]
  | drop i => simp only [after, clients_set, h]
  | derive i scope =>
    have hi := clients_member? h i
    simp only [after]
    cases hm : m.member? i <;> cases hm' : m'.member? i <;> simp only [hm, hm', Option.map_some,
      Option.map_none, reduceCtorEq, Option.some.injEq] at hi ⊢
    · exact h
    · -- the derived client depends on the client inside alone
      simpa only [clients, List.map_append, hi, List.append_cancel_right_eq] using h
  | record | flush | ask | receive | hangUp | lookedUp => exact h

end Roster

namespace Family

/-- The same hub and the same clients, whatever options are around them. -/
structure Alike (f g : Family) : Prop where
  hub : f.hub = g.hub
  clients : Roster.clients f.members = Roster.clients g.members

/-- The same answer and the same trace, and families that are alike again. -/
structure SameTurn {α : Type} (s t : Turn Family α) : Prop where
  result : s.result = t.result
  events : s.events = t.events
  state : Alike s.state t.state

namespace Alike
variable {f g : Family}

theorem step_member (h : f.hub = g.hub) {a : Action} {i : Nat} {r s : Reporter} (ha : a.member? = some i)
    (hf : f.member? i = some r) (hg : g.member? i = some s) (hrs : r.inside = s.inside) :
    (f.step a).result = (g.step a).result ∧ (f.step a).events = (g.step a).events ∧
      (f.step a).state.hub = (g.step a).state.hub := by
  cases a <;> cases ha <;>
    simp only [step, hf, hg, h, hrs, r.record_eq, s.record_eq, r.close_eq, s.close_eq, r.answer_eq, s.answer_eq,
      and_self]

theorem step (h : f.Alike g) (a : Action) : SameTurn (f.step a) (g.step a) := by
  have hstep : (f.step a).result = (g.step a).result ∧ (f.step a).events = (g.step a).events ∧
      (f.step a).state.hub = (g.step a).state.hub := by
    cases ha : a.member? with
    | none =>
      -- the far side of the sink sees the hub alone
      cases a <;> cases ha <;>
        simp only [Family.step, Family.receive, Family.hangUp, Family.lookedUp, withSink, h.hub] <;>
        cases g.hub.sink <;> simp only [h.hub, and_self]
    | some i =>
      have hi := Roster.clients_member? h.clients i
      rw [← member?_eq, ← member?_eq] at hi
      cases hf : f.member? i <;> cases hg : g.member? i <;> simp only [hf, hg, Option.map_some,
        Option.map_none, reduceCtorEq, Option.some.injEq] at hi
      · rw [step_of_none ha hf, step_of_none ha hg]
        exact ⟨rfl, rfl, h.hub⟩
      · exact step_member h.hub ha hf hg hi
  obtain ⟨hresult, hevents, hhub⟩ := hstep
  refine ⟨hresult, hevents, hhub, ?_⟩
  rw [step_members, step_members]
  exact Roster.clients_after h.clients a

theorem run {f g : Family} (h : f.Alike g) (actions : List Action) :
    SameTurn (f.run actions) (g.run actions) := by
  induction actions generalizing f g with
  | nil => exact ⟨rfl, rfl, h⟩
  | cons a rest ih =>
    have hfirst := h.step a
    have hlater := ih hfirst.state
    constructor
    case result => rw [Family.run, Family.run, hfirst.result, hlater.result]
    case events => rw [Family.run, Family.run, hfirst.events, hlater.events]
    case state => exact hlater.state

end Alike

/-- The family with another reporter in the place of a member. -/
def replace (f : Family) (i : Nat) (r : Reporter) : Family := { f with members := f.members.set i (some r) }

/-- Only the client inside a reporter matters for what the others in its place would do. -/
theorem replace_alike (f : Family) (i : Nat) {r s : Reporter} (h : r.inside = s.inside) :
    (f.replace i r).Alike (f.replace i s) := by
  refine ⟨rfl, ?_⟩
  simp only [replace, Roster.clients_set, Option.map_some, h]

theorem replace_self {f : Family} {i : Nat} {r : Reporter} (h : f.member? i = some r) : f.replace i r = f := by
  have hi : f.members[i]? = some (some r) := Roster.getElem?_eq h
  obtain ⟨hlt, hget⟩ := List.getElem?_eq_some_iff.mp hi
  simp only [replace, ← hget, List.set_getElem_self]

/-- A member, and what it answers when it is asked to decrement by the least integer: an error while the client
inside is active, and nothing otherwise. -/
theorem step_decrement_least {f : Family} {i : Nat} {r : Reporter} (hi : f.member? i = some r) (key : String)
    (rate : Binary32) (tags : List Tag) :
    (f.step (.record i ⟨key, .decrement Int64.minValue, rate, tags⟩)).result =
      .outcome (if r.inside.isActive then .error (.rejected .decrementOverflow) else .ok ()) := by
  simp only [step, hi, r.record_decrement_least, Reporter.isActive_eq]

end Family

open Family in
/-- **Options are transparent.** At every moment of every run, a reporter inside any number of options answers as it
does alone, with the same questions to the sampler, calls of the sink and lines of the log, and leaves the same hub
and the same clients; and an option that has nothing inside, at any depth, answers like an absent client. The one
error that options decide themselves, of a decrement by the least integer, comes exactly while the client inside is
active. -/
theorem options_transparent {f : Family} {i : Nat} {r : Reporter} (hi : f.member? i = some r) (n : Nat)
    (actions : List Action) :
    let bare := f.run actions
    let nested := (f.replace i (r.nest n)).run actions
    let absent := (f.replace i (.client .absent)).run actions
    let vacant := (f.replace i (Reporter.vacant.nest n)).run actions
    (SameTurn nested bare ∧ ∀ a, SameTurn (nested.state.step a) (bare.state.step a)) ∧
    (SameTurn vacant absent ∧ ∀ a, SameTurn (vacant.state.step a) (absent.state.step a)) ∧
    ∀ q, bare.state.member? i = some q → ∀ key rate tags,
      (nested.state.step (.record i ⟨key, .decrement Int64.minValue, rate, tags⟩)).result =
        .outcome (if q.inside.isActive then .error (.rejected .decrementOverflow) else .ok ()) := by
  intro bare nested absent vacant
  have hnested : SameTurn nested bare := by
    have h := f.replace_alike i (r.inside_nest n)
    rw [replace_self hi] at h
    exact h.run actions
  have hvacant : SameTurn vacant absent := by
    have hinside : (Reporter.vacant.nest n).inside = (Reporter.client .absent).inside :=
      Reporter.vacant.inside_nest n
    exact (f.replace_alike i hinside).run actions
  refine ⟨⟨hnested, fun a => hnested.state.step a⟩, ⟨hvacant, fun a => hvacant.state.step a⟩, ?_⟩
  intro q hq key rate tags
  rw [(hnested.state.step _).result]
  exact step_decrement_least hq key rate tags

/-- The client is closed inside two options, and takes from then on what it refused before. -/
theorem options_transparent_closing :
    let f := Family.ofClient "app" .discard {}
    let decrement : Action := .record 0 ⟨"n", .decrement Int64.minValue, .one, []⟩
    let actions : List Action := [decrement, .close 0, decrement, .ask 0 .isActive]
    f.member? 0 = some (.client (.active "app")) ∧
    ((f.replace 0 ((Reporter.client (.active "app")).nest 2)).run actions).result =
      [.outcome (.error (.rejected .decrementOverflow)), .outcome (.ok ()), .outcome (.ok ()), .flag false] := by
  intro f decrement actions
  have hi : f.member? 0 = some (.client (.active "app")) := rfl
  obtain ⟨⟨hsame, -⟩, -, -⟩ := options_transparent hi 2 actions
  refine ⟨hi, ?_⟩
  rw [hsame.result]
  rfl

end MetricWire
