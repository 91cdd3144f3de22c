import MetricWire.Proofs.Client.Effect

/-!
What a run of a family asks of the sampler and hands to the sink.

`Roster.observations` lists what the calls that count report, in call order. It is computed from the actions
and the members alone, so neither an answer of the sampler nor an outcome of the sink can shift it.

  1. `Effect.queries`, `Effect.emitted` — a step asks once and emits at most once for its own observation, and
     does neither without one.
  2. `Family.run_queries`, `Family.run_emitted` — the same of a whole run.
  3. `Family.run_scripted` — a scripted sink was called just as the events of the run tell.
  4. `queries_and_emits` — all of it together, for the family of a new client.
-/

namespace MetricWire

def Event.query? : Event → Option (Binary32 × Bool)
  | .query rate admitted => some (rate, admitted)
  | _ => none

def Event.emitted? : Event → Option String
  | .emit packet _ => some packet
  | _ => none

def Event.sinkCall? : Event → Option SinkCall
  | .emit packet _ => some (.emit packet)
  | .flush _ => some .flush
  | _ => none

def SinkCall.emitted? : SinkCall → Option String
  | .emit packet => some packet
  | .flush => none

/-- The answers of a sampler to rates asked one after another. -/
def Sampler.answers (s : Sampler) : List Binary32 → List Binary32 → List Bool
  | _, [] => []
  | asked, rate :: rest => s.admits asked rate :: s.answers (rate :: asked) rest

theorem Sampler.length_answers (s : Sampler) : ∀ asked rates, (s.answers asked rates).length = rates.length
  | _, [] => rfl
  | asked, rate :: rest => congrArg Nat.succ (s.length_answers (rate :: asked) rest)

namespace Roster

/-- The observations of the calls that count, in call order. -/
def observations (defaults : List Tag) : Roster → List Action → List Observation
  | _, [] => []
  | m, a :: rest => (m.observation? defaults a).toList ++ observations defaults (m.after a) rest

theorem observation?_of_reaches {m : Roster} {defaults : List Tag} {a : Action}
    (h : m.reaches defaults a = false) : m.observation? defaults a = none := by
  cases a with
  | record i call => simpa [reaches] using h
  | _ => rfl

end Roster

/-! ## One step -/

theorem Hub.pass_queries (h : Hub) (o : Observation) :
    (h.pass o).events.filterMap Event.query? = [(o.rate, h.options.sampler.admits h.asked o.rate)] := by
  simp only [pass]
  split <;> simp [Event.query?, *]

theorem Hub.pass_emitted (h : Hub) (o : Observation) :
    (h.pass o).events.filterMap Event.emitted? =
      if h.options.sampler.admits h.asked o.rate then [o.packet h.options.tagFormat] else [] := by
  simp only [pass]
  split <;> rfl

namespace Family.Effect
variable {f : Family} {a : Action} {h : Hub} {es : List Event}

theorem options (e : f.Effect a h es) : h.options = f.hub.options := by
  cases e <;> simp

theorem asked (e : f.Effect a h es) :
    h.asked = ((Roster.observation? f.members f.hub.options.tags a).map (·.rate)).toList ++ f.hub.asked := by
  cases e with
  | idle hr => simp [Roster.observation?_of_reaches hr]
  | pass ho => simp [ho]
  | _ => simp [Roster.observation?]

theorem queries (e : f.Effect a h es) :
    es.filterMap Event.query? = (Roster.observation? f.members f.hub.options.tags a).toList.map fun o =>
      (o.rate, f.hub.options.sampler.admits f.hub.asked o.rate) := by
  cases e with
  | idle hr => simp [Roster.observation?_of_reaches hr]
  | pass ho => simp [ho, Hub.pass_queries]
  | _ => simp [Roster.observation?, Event.query?]

theorem emitted (e : f.Effect a h es) :
    es.filterMap Event.emitted? = ((Roster.observation? f.members f.hub.options.tags a).toList.filter fun o =>
      f.hub.options.sampler.admits f.hub.asked o.rate).map fun o => o.packet f.hub.options.tagFormat := by
  cases e with
  | idle hr => simp [Roster.observation?_of_reaches hr]
  | pass ho => rw [ho, Hub.pass_emitted]; simp only [Option.toList_some, List.filter_cons]; split <;> rfl
  | _ => simp [Roster.observation?, Event.emitted?]

theorem scripted {script : Script} {calls : List SinkCall} (e : f.Effect a h es)
    (hs : f.hub.sink = .scripted script calls) :
    h.sink = .scripted script ((es.filterMap Event.sinkCall?).reverse ++ calls) := by
  cases e with
  | idle hr => exact hs
  | pass ho => simp only [Hub.pass, hs]; split <;> rfl
  | close hi hc => simp only [Hub.close, Hub.flush, Hub.letGo, hs]; split <;> rfl
  | flush hi hc => simp only [Hub.flush, hs]; rfl
  | drop hi hc => simp only [Hub.letGo]; split <;> simp [Event.sinkCall?, Sink.release, hs]
  | derive hi hc => simpa using hs
  | receive hk | hangUp hk | lookedUp hk => rw [hs] at hk; cases hk

end Family.Effect

/-! ## A whole run -/

namespace Family

/-- The observations of the calls that count in a run. -/
def observations (f : Family) (actions : List Action) : List Observation :=
  Roster.observations f.hub.options.tags f.members actions

/-- The answers that the sampler gives to them. -/
def answers (f : Family) (actions : List Action) : List Bool :=
  f.hub.options.sampler.answers f.hub.asked ((f.observations actions).map (·.rate))

theorem observations_cons (f : Family) (a : Action) (rest : List Action) :
    f.observations (a :: rest) = (Roster.observation? f.members f.hub.options.tags a).toList ++
      (f.step a).state.observations rest := by
  simp only [observations, Roster.observations, step_members, (f.step_effect a).options]

/-- A step without an observation leaves the later answers as they are; the rate of an observation is the
first to be asked about. -/
theorem answers_cons (f : Family) (a : Action) (rest : List Action) :
    f.answers (a :: rest) = ((Roster.observation? f.members f.hub.options.tags a).toList.map fun o =>
      f.hub.options.sampler.admits f.hub.asked o.rate) ++ (f.step a).state.answers rest := by
  -- the sampler's memory grows by just the rate that is at the head of the observations
  simp only [answers, observations_cons, (f.step_effect a).options, (f.step_effect a).asked]
  cases Roster.observation? f.members f.hub.options.tags a <;> simp [Sampler.answers]

theorem run_asked (f : Family) (actions : List Action) :
    (f.run actions).state.hub.asked = ((f.observations actions).map (·.rate)).reverse ++ f.hub.asked := by
  induction actions generalizing f with
  | nil => rfl
  | cons a rest ih =>
    show ((f.step a).state.run rest).state.hub.asked = _
    rw [ih, observations_cons, (f.step_effect a).asked]
    cases Roster.observation? f.members f.hub.options.tags a <;> simp

/-- The questions of a run pair the rates with the answers, both in call order. -/
theorem run_queries (f : Family) (actions : List Action) :
    (f.run actions).events.filterMap Event.query? =
      ((f.observations actions).map (·.rate)).zip (f.answers actions) := by
  induction actions generalizing f with
  | nil => rfl
  | cons a rest ih =>
    show ((f.step a).events ++ ((f.step a).state.run rest).events).filterMap Event.query? = _
    rw [List.filterMap_append, (f.step_effect a).queries, ih, observations_cons, answers_cons]
    -- the step has one observation, at the head of both lists, or none
    cases Roster.observation? f.members f.hub.options.tags a <;> simp

/-- The emits of a run are those of the observations that the sampler admits. -/
theorem run_emitted (f : Family) (actions : List Action) :
    (f.run actions).events.filterMap Event.emitted? =
      (((f.observations actions).zip (f.answers actions)).filter (·.2)).map
        fun p => p.1.packet f.hub.options.tagFormat := by
  induction actions generalizing f with
  | nil => rfl
  | cons a rest ih =>
    show ((f.step a).events ++ ((f.step a).state.run rest).events).filterMap Event.emitted? = _
    rw [List.filterMap_append, (f.step_effect a).emitted, ih, observations_cons, answers_cons,
      (f.step_effect a).options]
    cases Roster.observation? f.members f.hub.options.tags a with
    | none => rfl
    | some o => cases h : f.hub.options.sampler.admits f.hub.asked o.rate <;> simp [h]

theorem run_scripted {script : Script} (f : Family) (actions : List Action) (calls : List SinkCall)
    (hs : f.hub.sink = .scripted script calls) : (f.run actions).state.hub.sink =
      .scripted script (((f.run actions).events.filterMap Event.sinkCall?).reverse ++ calls) := by
  induction actions generalizing f calls with
  | nil => exact hs
  | cons a rest ih =>
    have hstep := (f.step_effect a).scripted hs
    simp only [run, ih _ _ hstep, List.filterMap_append, List.reverse_append, List.append_assoc]

/-- The emits among the calls of the sink are the emits that the events tell of. -/
theorem emitted_of_sinkCalls (es : List Event) :
    (es.filterMap Event.sinkCall?).filterMap SinkCall.emitted? = es.filterMap Event.emitted? := by
  rw [List.filterMap_filterMap]
  congr 1
  funext e
  cases e <;> rfl

end Family

/-- **The traffic of a run.** Which calls count is decided by the members, and these are as the run has them.
The sampler of a new client is asked the rates of the calls that count, once for each call and in call order,
and answers as it does to these rates alone. The packets emitted are those of the calls that it admitted, once
for each call and in call order, and these are the emits that a scripted sink receives, whichever of its calls
fail. -/
theorem queries_and_emits (scope : String) (sink : Sink) (options : ClientOptions) (actions : List Action) :
    let turn := (Family.ofClient scope sink options).run actions
    let calls := Roster.observations options.tags [some (.client (.active scope))] actions
    let answers := options.sampler.answers [] (calls.map (·.rate))
    let packets := ((calls.zip answers).filter (·.2)).map fun p => p.1.packet options.tagFormat
    turn.state.members = actions.foldl Roster.after [some (.client (.active scope))] ∧
    (turn.events.filterMap Event.query?).map (·.1) = calls.map (·.rate) ∧
    (turn.events.filterMap Event.query?).map (·.2) = answers ∧
    turn.state.hub.asked = (calls.map (·.rate)).reverse ∧
    turn.events.filterMap Event.emitted? = packets ∧
    ∀ script, ∃ received,
      ((Family.ofClient scope (.scripted script []) options).run actions).state.hub.sink =
        .scripted script received ∧
      received.reverse.filterMap SinkCall.emitted? = packets := by
  intro turn calls answers packets
  have hq : turn.events.filterMap Event.query? = (calls.map (·.rate)).zip answers :=
    Family.run_queries _ actions
  have hl : (calls.map (·.rate)).length = answers.length := (Sampler.length_answers _ _ _).symm
  have hsink : ∀ script, ((Family.ofClient scope (.scripted script []) options).run actions).state.hub.sink = _ :=
    fun _ => Family.run_scripted _ actions [] rfl
  refine ⟨Family.run_members _ actions, ?_, ?_, ?_, Family.run_emitted _ actions,
    fun script => ⟨_, hsink script, ?_⟩⟩
  · rw [hq, List.map_fst_zip (Nat.le_of_eq hl)]
  · rw [hq, List.map_snd_zip (Nat.le_of_eq hl.symm)]
  · exact (Family.run_asked _ actions).trans (List.append_nil _)
  · rw [List.append_nil, List.reverse_reverse, Family.emitted_of_sinkCalls]
    exact Family.run_emitted _ actions

/-- The second call is rejected and does not use up a turn of the sampler. -/
example : ((Family.ofClient "app" .discard { sampler := .every 2 }).run
    [.record 0 ⟨"a", .increment 1, .one, []⟩, .record 0 ⟨"b", .decrement Int64.minValue, .one, []⟩,
      .record 0 ⟨"c", .setText "x", .one, []⟩, .record 0 ⟨"d", .setText "y", .one, []⟩]).events.filterMap
    (fun | .emit packet _ => some packet | _ => none) = ["app.a:1|c", "app.d:y|s"] := by
  decide +kernel

end MetricWire
