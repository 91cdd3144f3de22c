import MetricWire.Proofs.Client.Effect

/-!
How long the sink of a family lives.

The hub counts its holders. The count is right when it is the number of active members, and every step keeps it
right: what an action makes of the hub is weighed against what it makes of the members. From there on the
releases are a ledger. A step that leaves the hub without holders shows one release, and no other step shows any.

  1. `Effect.holders`, `Balanced.run` — the count stays right, in a step and in a run.
  2. `Effect.releases`, `Family.run_releases` — a release is seen once when the life of the hub ends.
  3. `Effect.notAfter`, `Family.run_notAfter` — nothing uses the sink after its release.
  4. `sinkLifetime_run` — all that holds of a family at any moment of any run.
-/

namespace MetricWire

def Event.isRelease : Event → Bool
  | .release => true
  | _ => false

/-- The event is a call of the sink, or its release. -/
def Event.usesSink : Event → Bool
  | .emit .. | .flush _ | .release => true
  | _ => false

/-! ## How many members are active -/

namespace Roster
variable {m : Roster} {a : Action} {i : Nat} {r : Reporter}

def actives (m : Roster) : Nat := m.countP fun o => o.any Reporter.isActive

theorem actives_pos_iff : 0 < m.actives ↔ ∃ i r, m.member? i = some r ∧ r.isActive = true := by
  rw [actives, List.countP_pos_iff]
  constructor
  · rintro ⟨o, ho, hr⟩
    obtain ⟨i, hi⟩ := List.getElem?_of_mem ho
    cases o with
    | none => simp at hr
    | some r => exact ⟨i, r, by simp [member?, hi], hr⟩
  · rintro ⟨i, r, hi, hr⟩
    exact ⟨some r, List.mem_of_getElem? (getElem?_eq hi), hr⟩

theorem actives_set (h : m.member? i = some r) (o : Option Reporter) :
    Roster.actives (m.set i o) + r.isActive.toNat = m.actives + (o.any Reporter.isActive).toNat := by
  have hl := lt_length h
  have hi : m[i] = some r := (List.getElem?_eq_some_iff.mp (getElem?_eq h)).2
  have hpos : r.isActive = true → 0 < m.actives := fun hr => actives_pos_iff.mpr ⟨i, r, h, hr⟩
  rw [actives, List.countP_set hl, hi, ← actives]
  -- an active reporter was counted, so the subtraction loses nothing
  cases hr : r.isActive <;> cases ho : o.any Reporter.isActive <;> simp [hr]
  all_goals have := hpos hr; omega

theorem actives_modify (h : m.member? i = some r) (g : Reporter → Reporter) :
    Roster.actives (m.modify i (·.map g)) + r.isActive.toNat = m.actives + (g r).isActive.toNat := by
  rw [← set_eq_modify h]
  exact actives_set h (some (g r))

theorem actives_after_end (ha : a.ends? = some i) (h : m.member? i = some r) (hr : r.isActive = true) :
    (m.after a).actives + 1 = m.actives := by
  cases a <;> cases ha
  · simpa [after, hr, Reporter.isActive_closed] using actives_modify h Reporter.closed
  · simpa [after, hr] using actives_set h none

theorem actives_after_derive {parent : String} (h : m.member? i = some r) (hc : r.inside = .active parent)
    (scope : String) : (m.after (.derive i scope)).actives = m.actives + 1 := by
  simp only [after, h, actives, List.countP_append, hc]
  rfl

theorem actives_after_idle {defaults : List Tag} (h : m.reaches defaults a = false) :
    (m.after a).actives = m.actives := by
  cases a with
  | close i =>
    cases hi : m.member? i with
    | none => rw [after, modify_eq_self hi]
    | some r =>
      have hr : r.isActive = false := (isActive_of_some hi).symm.trans h
      simpa [after, hr, Reporter.isActive_closed] using actives_modify hi Reporter.closed
  | drop i =>
    cases hi : m.member? i with
    | none => rw [after, set_none_eq_self hi]
    | some r =>
      have hr : r.isActive = false := (isActive_of_some hi).symm.trans h
      simpa [after, hr] using actives_set hi none
  | derive i scope =>
    cases hi : m.member? i with
    | none => simp only [after, hi]
    | some r =>
      have hr : r.isActive = false := (isActive_of_some hi).symm.trans h
      -- what is derived from a client without a hub has none either
      have hc : (r.inside.below scope).isActive = false := by
        rcases Reporter.inside_of_inactive hr with hc | hc <;> rw [hc] <;> rfl
      simp [after, hi, actives, Reporter.isActive, hc]
  | wrap i =>
    cases hi : m.member? i with
    | none => rw [after, modify_eq_self hi]
    | some r => simpa [after, Reporter.isActive_wrap] using actives_modify hi Reporter.wrap
  | _ => rfl

end Roster

/-! ## One step -/

/-- The hub counts as many holders as there are active members. -/
def Family.Balanced (f : Family) : Prop := f.hub.holders = Roster.actives f.members

theorem Family.Balanced.holders_pos {f : Family} {i : Nat} {r : Reporter} {scope : String} (hb : f.Balanced)
    (hi : f.member? i = some r) (hc : r.inside = .active scope) : 0 < f.hub.holders := by
  rw [hb]
  exact Roster.actives_pos_iff.mpr ⟨i, r, hi, (Reporter.isActive_iff r).mpr ⟨scope, hc⟩⟩

/-- No use of the sink comes behind its release. -/
def Event.NotAfter (e e' : Event) : Prop := e.isRelease = true → e'.usesSink = false

namespace Family.Effect
variable {f : Family} {a : Action} {h : Hub} {es : List Event}

/-- The count of holders changes as the number of active members does. -/
theorem holders (e : f.Effect a h es) (hb : f.Balanced) : h.holders = (Roster.after f.members a).actives := by
  cases e with
  | idle hr => rw [Roster.actives_after_idle hr, hb]
  -- one active member less, and the hub is let go once
  | close hi hc =>
    have hn := Roster.actives_after_end (a := .close _) rfl hi ((Reporter.isActive_iff _).mpr ⟨_, hc⟩)
    simp only [Hub.close_state, Hub.letGo_state, Hub.flush_state]
    rw [hb]
    omega
  | drop hi hc =>
    have hn := Roster.actives_after_end (a := .drop _) rfl hi ((Reporter.isActive_iff _).mpr ⟨_, hc⟩)
    simp only [Hub.letGo_state]
    rw [hb]
    omega
  | derive hi hc => rw [Hub.hold_eq, Roster.actives_after_derive hi hc, hb]
  | pass => rw [Hub.pass_holders, hb]; rfl
  | flush | receive | hangUp | lookedUp => exact hb

/-- The ledger of a step: the life of the hub is left as it was, or a release is seen. -/
theorem releases (e : f.Effect a h es) (hb : f.Balanced) :
    es.countP Event.isRelease + h.isAlive.toNat = f.hub.isAlive.toNat := by
  have hpass : ∀ o, (f.hub.pass o).events.countP Event.isRelease = 0 := by
    intro o
    simp only [Hub.pass]
    split <;> rfl
  cases e with
  | idle | flush | receive | hangUp => exact Nat.zero_add _
  | lookedUp => simp [Hub.isAlive, Event.isRelease]
  | pass => rw [hpass]; simp [Hub.isAlive]
  | derive hi hc => simp [Hub.isAlive, hb.holders_pos hi hc]
  | close hi hc | drop hi hc =>
    have hpos := hb.holders_pos hi hc
    by_cases hn : f.hub.holders - 1 = 0
    · simp [Hub.isAlive, Event.isRelease, hn, hpos]
    · have hothers : 0 < f.hub.holders - 1 := Nat.pos_of_ne_zero hn
      simpa [Hub.isAlive, Event.isRelease, hn, hpos] using hothers

/-- A hub without holders stays without them, and a release leaves it so. -/
theorem isAlive_eq_false (e : f.Effect a h es) (hb : f.Balanced)
    (hd : f.hub.isAlive = false ∨ ∃ ev ∈ es, ev.isRelease = true) : h.isAlive = false := by
  have hledger := e.releases hb
  have hle := Bool.toNat_le f.hub.isAlive
  rcases hd with hd | hr
  · rw [hd, Bool.toNat_false] at hledger
    exact Bool.toNat_eq_zero.mp (by omega)
  · have hone : 0 < es.countP Event.isRelease := List.countP_pos_iff.mpr hr
    exact Bool.toNat_eq_zero.mp (by omega)

/-- Without an active member nothing gets as far as the sink. -/
theorem unused (e : f.Effect a h es) (hb : f.Balanced) (hd : f.hub.isAlive = false) :
    ∀ ev ∈ es, ev.usesSink = false := by
  have hno : ∀ {i r scope}, f.member? i = some r → r.inside ≠ .active scope := by
    intro i r scope hi hc
    have hpos := hb.holders_pos hi hc
    simp [Hub.isAlive] at hd
    omega
  cases e with
  | pass ho =>
    obtain ⟨r, hi, hr⟩ := Option.bind_eq_some_iff.mp ho
    unfold Reporter.observation? at hr
    split at hr
    · exact absurd ‹_› (hno hi)
    · cases hr
  | close hi hc | flush hi hc | drop hi hc => exact absurd hc (hno hi)
  | lookedUp => simp [Event.usesSink]
  | idle | derive | receive | hangUp => simp

/-- A release comes from the end of an active member, with no other holder. -/
theorem of_release (e : f.Effect a h es) (hr : Event.release ∈ es) :
    ∃ i r scope, a.ends? = some i ∧ f.member? i = some r ∧ r.inside = .active scope ∧
      f.hub.holders - 1 = 0 := by
  cases e with
  | pass => simp only [Hub.pass] at hr; split at hr <;> simp at hr
  | close hi hc | drop hi hc =>
    exact ⟨_, _, _, rfl, hi, hc, by simpa using hr⟩
  | lookedUp => simp at hr
  | idle | flush | derive | receive | hangUp => simp at hr

theorem notAfter (e : f.Effect a h es) : es.Pairwise Event.NotAfter := by
  cases e with
  | pass =>
    simp only [Hub.pass]
    split <;> simp [Event.NotAfter, Event.isRelease]
  | close | drop =>
    simp only [Hub.close_events, Hub.letGo_events]
    split <;> simp [Event.NotAfter, Event.isRelease]
  | lookedUp => cases Prod.snd _ <;> simp
  | idle | flush | derive | receive | hangUp => simp

end Family.Effect

/-! ## A whole run -/

namespace Family

theorem Balanced.step {f : Family} (hb : f.Balanced) (a : Action) : (f.step a).state.Balanced := by
  unfold Balanced
  rw [step_members]
  exact (f.step_effect a).holders hb

theorem Balanced.run : ∀ {f : Family}, f.Balanced → ∀ actions : List Action, (f.run actions).state.Balanced
  | _, hb, [] => hb
  | _, hb, a :: rest => Balanced.run (hb.step a) rest

theorem balanced_ofClient (scope : String) (sink : Sink) (options : ClientOptions) :
    (ofClient scope sink options).Balanced := rfl

theorem run_releases {f : Family} (hb : f.Balanced) (actions : List Action) :
    (f.run actions).events.countP Event.isRelease + (f.run actions).state.hub.isAlive.toNat =
      f.hub.isAlive.toNat := by
  induction actions generalizing f with
  | nil => exact Nat.zero_add _
  | cons a rest ih =>
    have hstep := (f.step_effect a).releases hb
    have hrest := ih (hb.step a)
    show ((f.step a).events ++ ((f.step a).state.run rest).events).countP Event.isRelease +
      ((f.step a).state.run rest).state.hub.isAlive.toNat = f.hub.isAlive.toNat
    rw [List.countP_append]
    omega

/-- A hub that lives no more does not come back, and its sink is not used again. -/
theorem run_unused {f : Family} (hb : f.Balanced) (hd : f.hub.isAlive = false) (actions : List Action) :
    ∀ e ∈ (f.run actions).events, e.usesSink = false := by
  induction actions generalizing f with
  | nil =>
    intro e he
    cases he
  | cons a rest ih =>
    have hdead := (f.step_effect a).isAlive_eq_false hb (Or.inl hd)
    intro e he
    rcases List.mem_append.mp he with he | he
    · exact (f.step_effect a).unused hb hd e he
    · exact ih (hb.step a) hdead e he

theorem run_notAfter {f : Family} (hb : f.Balanced) (actions : List Action) :
    (f.run actions).events.Pairwise Event.NotAfter := by
  induction actions generalizing f with
  | nil => exact List.Pairwise.nil
  | cons a rest ih =>
    refine List.pairwise_append.mpr ⟨(f.step_effect a).notAfter, ih (hb.step a), ?_⟩
    -- the step with the release ends the life of the hub, so the rest of the run is covered
    intro e he e' he' hr
    have hdead := (f.step_effect a).isAlive_eq_false hb (Or.inr ⟨e, he, hr⟩)
    exact run_unused (hb.step a) hdead rest e' he'

theorem Balanced.release_mem_iff {f : Family} (hb : f.Balanced) (a : Action) :
    Event.release ∈ (f.step a).events ↔
      ∃ i r, a.ends? = some i ∧ f.member? i = some r ∧ r.isActive = true ∧ f.activeMembers = 1 := by
  constructor
  · intro hr
    obtain ⟨i, r, scope, ha, hi, hc, hn⟩ := (f.step_effect a).of_release hr
    have hpos := hb.holders_pos hi hc
    refine ⟨i, r, ha, hi, (Reporter.isActive_iff r).mpr ⟨scope, hc⟩, ?_⟩
    rw [show f.activeMembers = f.hub.holders from hb.symm]
    omega
  · rintro ⟨i, r, ha, hi, hr, hone⟩
    -- the ledger: alive before the step, and without a holder after it
    have hledger := (f.step_effect a).releases hb
    have hafter : (f.step a).state.hub.holders = 0 := by
      have hend := Roster.actives_after_end ha hi hr
      rw [(f.step_effect a).holders hb]
      change Roster.actives f.members = 1 at hone
      omega
    have hbefore : f.hub.holders = 1 := hb.trans hone
    simp only [Hub.isAlive, hafter, hbefore] at hledger
    obtain ⟨e, he, hrel⟩ := List.countP_pos_iff.mp (Nat.lt_of_lt_of_eq Nat.zero_lt_one hledger.symm)
    cases e <;> cases hrel
    exact he

end Family

/-! ## Any moment of any run -/

/-- What holds of the family of a new client at every moment; `past` is all that could be seen so far. -/
structure SinkLifetime (f : Family) (past : List Event) : Prop where
  /-- The sink lives as long as some member is active. -/
  alive_iff : f.hub.isAlive = true ↔ ∃ i r, f.member? i = some r ∧ r.isActive = true
  /-- It was released once if it lives no more, and otherwise not yet. -/
  releases : past.countP Event.isRelease = if f.hub.isAlive then 0 else 1
  /-- Nothing used it after its release. -/
  unused_after : ∀ before after, past = before ++ .release :: after → ∀ e ∈ after, e.usesSink = false
  /-- It is released when the only active member is closed or dropped, and not by anything else. -/
  release_iff : ∀ a, Event.release ∈ (f.step a).events ↔
    ∃ i r, a.ends? = some i ∧ f.member? i = some r ∧ r.isActive = true ∧ f.activeMembers = 1
  /-- The close of an active member writes one line with its scope, flushes once and then releases the sink if no
  other member is active. Whatever became of the flush, the member is closed. -/
  close_active : ∀ i r scope, f.member? i = some r → r.inside = .active scope →
    (∃ line, line.level = .debug ∧ line.text = "closing statsd client with prefix " ++ Quoted.text scope ∧
      (f.step (.close i)).events =
        .log line :: .flush f.hub.sink.flush.1 :: if f.activeMembers = 1 then [.release] else []) ∧
    ((f.step (.close i)).state.member? i).map Reporter.inside = some .closed
  /-- The close of any other member touches nothing. -/
  close_inactive : ∀ i r, f.member? i = some r → r.isActive = false →
    f.step (.close i) = ⟨.outcome (.ok ()), f, []⟩
  /-- A member that is dropped without a close does not flush. -/
  drop_unflushed : ∀ i outcome, Event.flush outcome ∉ (f.step (.drop i)).events
  /-- The end of one member leaves all others as they are. -/
  others : ∀ a i j, a.ends? = some i → j ≠ i → (f.step a).state.member? j = f.member? j

namespace Family

theorem step_close_active {f : Family} {i : Nat} {r : Reporter} {scope : String} (hi : f.member? i = some r)
    (hc : r.inside = .active scope) : (f.step (.close i)).events = (f.hub.close scope).events ∧
      ((f.step (.close i)).state.member? i).map Reporter.inside = some .closed := by
  constructor
  · simp only [step, hi, Reporter.close_eq, hc, Client.close]
  · have hr : r.isActive = true := (Reporter.isActive_iff r).mpr ⟨scope, hc⟩
    rw [member?_eq, step_members, Roster.member?_after_close, ← member?_eq, hi]
    exact congrArg some (Reporter.inside_closed hr)

theorem step_close_inactive {f : Family} {i : Nat} {r : Reporter} (hi : f.member? i = some r)
    (hr : r.isActive = false) : f.step (.close i) = ⟨.outcome (.ok ()), f, []⟩ := by
  have hset : f.members.set i (some r) = f.members := by
    have hm := (List.getElem?_eq_some_iff.mp (Roster.getElem?_eq hi)).2
    rw [← hm, List.set_getElem_self]
  have hc : r.inside = .absent ∨ r.inside = .closed := Reporter.inside_of_inactive hr
  rcases hc with hc | hc <;>
    simp only [step, hi, Reporter.close_eq, Reporter.closed_eq_self hr, hc, Client.close, hset]

theorem drop_unflushed (f : Family) (i : Nat) (outcome : Except IoError Unit) :
    Event.flush outcome ∉ (f.step (.drop i)).events := by
  cases hi : f.member? i with
  | none => simp [step, hi]
  | some r => cases hc : r.inside <;> simp [step, hi, hc, Client.drop]

theorem others_of_end {f : Family} {a : Action} {i j : Nat} (ha : a.ends? = some i) (hj : j ≠ i) :
    (f.step a).state.member? j = f.member? j := by
  rw [member?_eq, step_members]
  cases a <;> cases ha
  · exact Roster.member?_modify_of_ne hj.symm _
  · exact Roster.member?_set_of_ne hj.symm none

end Family

/-- **The life of a sink.** At every moment of every run of the family of a new client its sink lives exactly as
long as some member is active, whichever of its calls fail. -/
theorem sinkLifetime_run (scope : String) (sink : Sink) (options : ClientOptions) (actions : List Action) :
    let turn := (Family.ofClient scope sink options).run actions
    SinkLifetime turn.state turn.events := by
  intro turn
  have hstart := Family.balanced_ofClient scope sink options
  have hb : turn.state.Balanced := hstart.run actions
  have hledger : turn.events.countP Event.isRelease + turn.state.hub.isAlive.toNat = 1 :=
    Family.run_releases hstart actions
  -- a close looks at the holders that are left, the statement at the active members that were there
  have hlast : ∀ i r parent, turn.state.member? i = some r → r.inside = .active parent →
      (turn.state.hub.holders - 1 = 0 ↔ turn.state.activeMembers = 1) := by
    intro i r parent hi hc
    have hpos := hb.holders_pos hi hc
    rw [show turn.state.activeMembers = turn.state.hub.holders from hb.symm]
    omega
  constructor
  case alive_iff =>
    rw [Hub.isAlive, decide_eq_true_iff, hb]
    exact Roster.actives_pos_iff
  case releases =>
    cases h : turn.state.hub.isAlive <;> simp [h] at hledger ⊢ <;> exact hledger
  case unused_after =>
    intro before after heq e he
    have hp := Family.run_notAfter hstart actions
    rw [show ((Family.ofClient scope sink options).run actions).events = turn.events from rfl, heq] at hp
    exact (List.pairwise_cons.mp (List.pairwise_append.mp hp).2.1).1 e he rfl
  case release_iff => exact hb.release_mem_iff
  case close_active =>
    intro i r parent hi hc
    obtain ⟨hevents, hclosed⟩ := Family.step_close_active hi hc
    refine ⟨⟨.closing parent, rfl, rfl, ?_⟩, hclosed⟩
    simp only [hevents, Hub.close_events, hlast i r parent hi hc]
  case close_inactive => exact fun i r => Family.step_close_inactive
  case drop_unflushed => exact turn.state.drop_unflushed
  case others => exact fun a i j => Family.others_of_end

/-- The sink outlives the first close, and a failing flush does not keep the last one from releasing it. -/
example : ((Family.ofClient "app" (.refusing .timedOut) {}).run
    [.derive 0 "db", .close 0, .close 0, .record 1 ⟨"n", .increment 1, .one, []⟩, .close 1,
      .drop 1]).events.map
    (fun | .query .. => "query" | .emit .. => "emit" | .flush _ => "flush" | .release => "release" | .log _ => "log") =
    ["log", "flush", "query", "emit", "log", "flush", "release"] := by
  decide +kernel

end MetricWire
