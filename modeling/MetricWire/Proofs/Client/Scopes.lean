import MetricWire.Proofs.Client.Encoding
import MetricWire.Proofs.Client.Options

/-!
The scopes of derived clients.

Deriving a client joins two scopes, and a call joins the scope of its client and a key; in both an empty scope adds
nothing. Joining scopes is associative with the empty scope as unit, and it acts on keys, so a chain of derivations
comes to one scope: those that are not empty, with dots between them.

  1. `joinScopes_assoc`, `scopedName_joinScopes`, `joinedScopes_flatten` — the laws of scopes.
  2. `Contains.below`, `Descent.contains` — one derivation, and a chain of them with anything in between.
  3. `Contains.derive_twice`, `Contains.record_below` — two derivations for one, and a scope for a part of the key.
  4. `scopes_compose` — all of it.
-/

namespace MetricWire

/-! ## Joining scopes -/

/-- The scopes that are not empty, with dots between them. -/
def joinedScopes (scopes : List String) : String := ".".intercalate (scopes.filter (· ≠ ""))

@[simp] theorem joinScopes_empty (s : String) : joinScopes s "" = s := by
  unfold joinScopes
  split
  · rename_i h
    exact h.symm
  · rfl

@[simp] theorem empty_joinScopes (s : String) : joinScopes "" s = s := rfl

theorem joinScopes_of_ne {s t : String} (hs : s ≠ "") (ht : t ≠ "") : joinScopes s t = s ++ "." ++ t := by
  rw [joinScopes, if_neg hs, if_neg ht]

theorem joinScopes_eq_empty_iff {s t : String} : joinScopes s t = "" ↔ s = "" ∧ t = "" := by
  by_cases hs : s = ""
  · simp [hs]
  · by_cases ht : t = ""
    · simp [ht]
    · simp [joinScopes_of_ne hs ht, hs]

theorem joinScopes_assoc (s t u : String) : joinScopes (joinScopes s t) u = joinScopes s (joinScopes t u) := by
  by_cases hs : s = ""
  · rw [hs, empty_joinScopes, empty_joinScopes]
  by_cases ht : t = ""
  · rw [ht, joinScopes_empty, empty_joinScopes]
  by_cases hu : u = ""
  · rw [hu, joinScopes_empty, joinScopes_empty]
  have hst : joinScopes s t ≠ "" := fun h => hs (joinScopes_eq_empty_iff.mp h).1
  have htu : joinScopes t u ≠ "" := fun h => ht (joinScopes_eq_empty_iff.mp h).1
  rw [joinScopes_of_ne hst hu, joinScopes_of_ne hs htu, joinScopes_of_ne hs ht, joinScopes_of_ne ht hu]
  simp only [String.append_assoc]

/-- A name below two scopes is below the scope that they come to. -/
theorem scopedName_joinScopes (s t key : String) :
    scopedName (joinScopes s t) key = scopedName s (scopedName t key) := by
  by_cases hs : s = ""
  · rw [hs]
    rfl
  by_cases ht : t = ""
  · rw [ht, joinScopes_empty]
    rfl
  have hst : joinScopes s t ≠ "" := fun h => hs (joinScopes_eq_empty_iff.mp h).1
  rw [scopedName, if_neg hst, joinScopes_of_ne hs ht, scopedName, if_neg hs, scopedName, if_neg ht]
  simp only [String.append_assoc]

theorem joinedScopes_cons (s : String) (scopes : List String) :
    joinedScopes (s :: scopes) = joinScopes s (joinedScopes scopes) := by
  by_cases hs : s = ""
  · simp [joinedScopes, hs]
  have hfilter : (s :: scopes).filter (· ≠ "") = s :: scopes.filter (· ≠ "") := List.filter_cons_of_pos (by simpa)
  rw [joinedScopes, hfilter, joinedScopes]
  cases hrest : scopes.filter (· ≠ "") with
  | nil => simp
  | cons t rest =>
    have hmem : t ∈ scopes.filter (· ≠ "") := hrest ▸ List.mem_cons_self
    have ht : t ≠ "" := of_decide_eq_true (List.mem_filter.mp hmem).2
    have hjoined : ".".intercalate (t :: rest) ≠ "" := by
      cases rest <;> simp [ht]
    rw [joinScopes_of_ne hs hjoined, String.intercalate_cons_cons]

theorem joinedScopes_append (a b : List String) :
    joinedScopes (a ++ b) = joinScopes (joinedScopes a) (joinedScopes b) := by
  induction a with
  | nil => rfl
  | cons s rest ih => rw [List.cons_append, joinedScopes_cons, ih, joinedScopes_cons, joinScopes_assoc]

theorem joinedScopes_flatten (groups : List (List String)) :
    joinedScopes (groups.map joinedScopes) = joinedScopes groups.flatten := by
  induction groups with
  | nil => rfl
  | cons scopes rest ih => rw [List.map_cons, joinedScopes_cons, ih, List.flatten_cons, joinedScopes_append]

theorem joinedScopes_eq_empty_iff {scopes : List String} : joinedScopes scopes = "" ↔ ∀ s ∈ scopes, s = "" := by
  induction scopes with
  | nil => simp [joinedScopes]
  | cons s rest ih => rw [joinedScopes_cons, joinScopes_eq_empty_iff, ih, List.forall_mem_cons]

/-- To derive one client after the other joins the scopes from the front. -/
theorem foldl_joinScopes (base : String) (scopes : List String) :
    scopes.foldl joinScopes base = joinedScopes (base :: scopes) := by
  induction scopes generalizing base with
  | nil => rw [joinedScopes_cons]; exact (joinScopes_empty base).symm
  | cons s rest ih => rw [List.foldl_cons, ih, joinedScopes_cons, joinedScopes_cons, joinedScopes_cons,
      joinScopes_assoc]

/-! ## One step -/

/-- Scope and key of a call matter only for the name that they come to. -/
theorem Hub.submit_congr (h : Hub) {scope key scope' key' : String}
    (hname : scopedName scope key = scopedName scope' key')
    (kind : Kind) (value : Value) (rate : Binary32) (tags : List Tag) :
    h.submit scope key kind value rate tags = h.submit scope' key' kind value rate tags := by
  cases hf : kind.fault? value with
  | some fault => rw [submit_of_fault hf, submit_of_fault hf]
  | none =>
    rw [submit_eq_pass hf, submit_eq_pass hf]
    refine pass_congr rfl ?_
    rw [Observation.packet_eq_packet_fullName, Observation.packet_eq_packet_fullName (o := ⟨scope', _, _, _, _, _⟩)]
    simp only [hname]

theorem Reporter.record_congr (h : Hub) {scope key scope' key' : String}
    (hname : scopedName scope key = scopedName scope' key') (m : Measurement) (rate : Binary32) (tags : List Tag) :
    (client (.active scope)).record h ⟨key, m, rate, tags⟩ =
      (client (.active scope')).record h ⟨key', m, rate, tags⟩ := by
  cases hm : m.observation with
  | error fault => simp only [record, hm, isActive, Client.isActive]
  | ok kv => simp only [record, hm, submit, Client.submit, h.submit_congr hname]

namespace Family.Contains
variable {f : Family} {i : Nat} {c : Client} {scope : String}

theorem step_record (h : f.Contains i c) (call : Call) : f.step (.record i call) =
    ⟨.outcome ((Reporter.client c).record f.hub call).result,
      { f with hub := ((Reporter.client c).record f.hub call).state },
      ((Reporter.client c).record f.hub call).events⟩ := by
  obtain ⟨r, hi, hr⟩ := h
  simp only [step, hi, r.record_eq, hr]

theorem step_ask (h : f.Contains i c) (question : Question) :
    (f.step (.ask i question)).result = (Reporter.client c).answer f.hub question := by
  obtain ⟨r, hi, hr⟩ := h
  simp only [step, hi, r.answer_eq, hr]

theorem step_derive (h : f.Contains i (.active scope)) (child : String) : f.step (.derive i child) =
    ⟨.outcome (.ok ()), ⟨f.hub.hold, f.members ++ [some (.client (.active (joinScopes scope child)))]⟩, []⟩ := by
  obtain ⟨r, hi, hr⟩ := h
  simp only [step, hi, hr, Client.derive]

theorem step_drop (h : f.Contains i (.active scope)) : f.step (.drop i) =
    ⟨.outcome (.ok ()), ⟨f.hub.letGo.state, f.members.set i none⟩, f.hub.letGo.events⟩ := by
  obtain ⟨r, hi, hr⟩ := h
  simp only [step, hi, hr, Client.drop]

theorem below (h : f.Contains i (.active scope)) (child : String) :
    (f.step (.derive i child)).state.Contains f.members.length (.active (joinScopes scope child)) := by
  refine ⟨.client (.active (joinScopes scope child)), ?_, rfl⟩
  rw [h.step_derive, member?]
  simp

theorem emitted (h : f.Contains i (.active scope)) {m : Measurement} {kind : Kind} {value : Value}
    (hm : m.accepted? = some (kind, value)) (key : String) (rate : Binary32) (tags : List Tag) :
    (f.step (.record i ⟨key, m, rate, tags⟩)).events.filterMap Event.emitted? =
      if f.hub.options.sampler.admits f.hub.asked rate then
        [Observation.packet ⟨"", scopedName scope key, kind, value, rate, f.hub.options.tags ++ tags⟩
          f.hub.options.tagFormat]
      else [] := by
  have ho : (Reporter.client (.active scope)).observation? f.hub.options.tags ⟨key, m, rate, tags⟩ =
      some ⟨scope, key, kind, value, rate, f.hub.options.tags ++ tags⟩ := by
    simp only [Reporter.observation?, Reporter.inside, hm]
  rw [h.step_record, Reporter.record_of_observation ho, Hub.pass_emitted, Observation.packet_eq_packet_fullName]

/-! ## Derivations in place of others -/

/-- A client below a derived one might as well be derived from the first one, with both scopes joined. -/
theorem derive_twice (h : f.Contains i (.active scope)) (a b : String) :
    (f.run [.derive i a, .derive f.members.length b]).state =
      (f.run [.derive i a, .derive i (joinScopes a b)]).state := by
  have hparent : (f.step (.derive i a)).state.Contains i (.active scope) := h.kept (by simp [Action.ends?])
  show ((f.step (.derive i a)).state.step (.derive f.members.length b)).state =
    ((f.step (.derive i a)).state.step (.derive i (joinScopes a b))).state
  rw [(h.below a).step_derive, hparent.step_derive, joinScopes_assoc]

theorem derive_twice_dropped (h : f.Contains i (.active scope)) (a b : String) :
    let one := f.step (.derive i (joinScopes a b))
    let two := f.run [.derive i a, .derive f.members.length b, .drop f.members.length]
    one.events = [] ∧ two.events = [] ∧ two.state.hub = one.state.hub ∧
      ∃ r, one.state.members = f.members ++ [some r] ∧ two.state.members = f.members ++ [none, some r] := by
  intro one two
  have hone : one = _ := h.step_derive (joinScopes a b)
  have hfirst := h.step_derive a
  have hsecond := (h.below a).step_derive b
  have hthird := ((h.below a).kept (a := .derive f.members.length b) (by simp [Action.ends?])).step_drop
  rw [joinScopes_assoc] at hsecond
  have hevents : two.events = (f.step (.derive i a)).events ++ (((f.step (.derive i a)).state.step _).events ++
      ((((f.step (.derive i a)).state.step _).state.step _).events ++ [])) := rfl
  have hstate : two.state = (((f.step (.derive i a)).state.step _).state.step _).state := rfl
  -- two more clients hold the hub before one of them lets it go, so it is not released
  rw [hevents, hstate, hone, hthird, hsecond, hfirst]
  refine ⟨rfl, by simp, by simp, _, rfl, by simp⟩

/-- A client that is derived with an empty scope is as good as the one above it. -/
theorem derive_empty (h : f.Contains i (.active scope)) :
    let derived := (f.step (.derive i "")).state
    (∀ call, derived.step (.record f.members.length call) = derived.step (.record i call)) ∧
    ∀ question, (derived.step (.ask f.members.length question)).result = (derived.step (.ask i question)).result := by
  intro derived
  have habove : derived.Contains i (.active scope) := h.kept (by simp [Action.ends?])
  have hbelow : derived.Contains f.members.length (.active scope) := joinScopes_empty scope ▸ h.below ""
  refine ⟨fun call => ?_, fun question => ?_⟩
  · rw [habove.step_record, hbelow.step_record]
  · rw [habove.step_ask, hbelow.step_ask]

/-- A scope can as well be a part of the key. -/
theorem record_below (h : f.Contains i (.active scope)) {child : String} (hchild : child ≠ "") (key : String)
    (m : Measurement) (rate : Binary32) (tags : List Tag) :
    let derived := (f.step (.derive i child)).state
    derived.step (.record f.members.length ⟨key, m, rate, tags⟩) =
      derived.step (.record i ⟨child ++ "." ++ key, m, rate, tags⟩) := by
  intro derived
  have habove : derived.Contains i (.active scope) := h.kept (by simp [Action.ends?])
  have hname : scopedName (joinScopes scope child) key = scopedName scope (child ++ "." ++ key) := by
    rw [scopedName_joinScopes, scopedName, scopedName, if_neg hchild]
    rfl
  rw [habove.step_record, (h.below child).step_record, Reporter.record_congr _ hname]

end Family.Contains

/-! ## A chain of derivations -/

/-- A run that derives clients with these scopes one below the other, the first one below the first member and the
last one as the last member. None of them is closed or dropped before the next one is derived, and the last one is
not at all; whatever else happens is left open. -/
inductive Family.Descent : Family → Nat → List String → List Action → Nat → Prop
  | stop {f i} : Descent f i [] [] i
  | derive {f i scope scopes actions j} :
      Descent (f.step (.derive i scope)).state f.members.length scopes actions j →
      Descent f i (scope :: scopes) (.derive i scope :: actions) j
  | other {f i a scopes actions j} : a.ends? ≠ some i → Descent (f.step a).state i scopes actions j →
      Descent f i scopes (a :: actions) j

/-- Derives clients one below the other and does nothing else, if the next free place is `n`. -/
def derivations (i n : Nat) : List String → List Action
  | [] => []
  | scope :: scopes => .derive i scope :: derivations n (n + 1) scopes

namespace Family

theorem Contains.descent {f : Family} {i : Nat} {scope : String} (h : f.Contains i (.active scope))
    (scopes : List String) : ∃ j, f.Descent i scopes (derivations i f.members.length scopes) j := by
  induction scopes generalizing f i scope with
  | nil => exact ⟨i, .stop⟩
  | cons child rest ih =>
    have hlength : (f.step (.derive i child)).state.members.length = f.members.length + 1 := by
      rw [h.step_derive]
      exact List.length_append
    obtain ⟨j, hj⟩ := ih (h.below child)
    rw [hlength] at hj
    exact ⟨j, hj.derive⟩

theorem Descent.contains {f : Family} {i j : Nat} {scopes : List String} {actions : List Action} {base : String}
    (hd : f.Descent i scopes actions j) (h : f.Contains i (.active base)) :
    (f.run actions).state.Contains j (.active (joinedScopes (base :: scopes))) := by
  rw [← foldl_joinScopes]
  induction hd generalizing base with
  | stop => exact h
  | derive hrest ih => exact ih (h.below _)
  | other ha hrest ih => exact ih (h.kept ha)

/-- What holds of a client that came by these scopes, that of the first one included. -/
structure Scoped (f : Family) (j : Nat) (scopes : List String) : Prop where
  scope : (f.step (.ask j .scope)).result = .text (some (".".intercalate (scopes.filter (· ≠ ""))))
  /-- What is emitted for an accepted measurement is what is encoded under the key behind the scope. -/
  name : ∀ key m rate tags kind value, m.accepted? = some (kind, value) →
    let path := ".".intercalate (scopes.filter (· ≠ ""))
    ∃ packet, encode (if ∀ s ∈ scopes, s = "" then key else path ++ "." ++ key) kind value rate
        (f.hub.options.tags ++ tags) f.hub.options.tagFormat = .ok packet ∧
      (f.step (.record j ⟨key, m, rate, tags⟩)).events.filterMap Event.emitted? =
        if f.hub.options.sampler.admits f.hub.asked rate then [packet] else []
  /-- Two derivations are as good as one with the joined scope, in all that comes after them. -/
  twice : ∀ a b, (f.run [.derive j a, .derive f.members.length b]).state =
    (f.run [.derive j a, .derive j (joinedScopes [a, b])]).state
  /-- So they are if the client in between is dropped, which leaves a place behind and nothing else. -/
  twice_dropped : ∀ a b,
    let one := f.step (.derive j (joinedScopes [a, b]))
    let two := f.run [.derive j a, .derive f.members.length b, .drop f.members.length]
    one.events = [] ∧ two.events = [] ∧ two.state.hub = one.state.hub ∧
      ∃ r, one.state.members = f.members ++ [some r] ∧ two.state.members = f.members ++ [none, some r]
  /-- A client derived with an empty scope does what the one above it does. -/
  empty : let derived := (f.step (.derive j "")).state
    (∀ call, derived.step (.record f.members.length call) = derived.step (.record j call)) ∧
    ∀ question, (derived.step (.ask f.members.length question)).result = (derived.step (.ask j question)).result
  /-- A client derived with a scope does what the one above it does with the scope before the key. -/
  below : ∀ child, child ≠ "" → ∀ key m rate tags,
    let derived := (f.step (.derive j child)).state
    derived.step (.record f.members.length ⟨key, m, rate, tags⟩) =
      derived.step (.record j ⟨child ++ "." ++ key, m, rate, tags⟩)

theorem Contains.scoped {f : Family} {j : Nat} {scopes : List String}
    (h : f.Contains j (.active (joinedScopes scopes))) : f.Scoped j scopes := by
  have hpair : ∀ a b, joinedScopes [a, b] = joinScopes a b := fun a b => (foldl_joinScopes a [b]).symm
  constructor
  case scope => exact h.step_ask .scope
  case name =>
    intro key m rate tags kind value hm path
    have hname : (if ∀ s ∈ scopes, s = "" then key else path ++ "." ++ key) =
        scopedName (joinedScopes scopes) key := by
      simp only [scopedName, joinedScopes_eq_empty_iff]
      rfl
    have hvalue : kind.fault? value = none := Measurement.fault?_of_accepted? hm
    rw [hname, h.emitted hm, encode, hvalue]
    exact ⟨_, rfl, rfl⟩
  case twice => exact fun a b => hpair a b ▸ h.derive_twice a b
  case twice_dropped => exact fun a b => hpair a b ▸ h.derive_twice_dropped a b
  case empty => exact h.derive_empty
  case below => exact fun child hchild => h.record_below hchild

end Family

open Family in
/-- **Scopes compose.** Derive clients from an active one, each from the one before, with any scopes; whatever happens
in between, and whatever becomes of the others afterwards, the last one has as scope those that are not empty, its own
and that of the first one included, with dots between them, and what it emits stands under that scope. It does not
matter how the scopes are grouped, an empty one adds nothing, and one that is not empty is as good as a part of the
key. -/
theorem scopes_compose {f : Family} {i : Nat} {base : String} (h : f.Contains i (.active base))
    (scopes : List String) :
    (∃ j, f.Descent i scopes (derivations i f.members.length scopes) j) ∧
    (∀ actions j, f.Descent i scopes actions j → (f.run actions).state.Scoped j (base :: scopes)) ∧
    ∀ groups : List (List String), groups.flatten = scopes → ∀ actions j,
      f.Descent i (groups.map joinedScopes) actions j → (f.run actions).state.Scoped j (base :: scopes) := by
  refine ⟨h.descent scopes, fun actions j hd => (hd.contains h).scoped, ?_⟩
  rintro groups rfl actions j hd
  have hcontains := hd.contains h
  rw [joinedScopes_cons, joinedScopes_flatten, ← joinedScopes_cons] at hcontains
  exact hcontains.scoped

open Family in
/-- A chain with an empty scope in it, below a client without one. Every client is closed or dropped as soon as the
next one is there. -/
theorem scopes_compose_between :
    let f := Family.ofClient "" .discard {}
    let g := (f.run [.derive 0 "db", .close 0, .derive 1 "", .drop 1, .derive 2 "pool", .close 2]).state
    f.Contains 0 (.active "") ∧ (g.step (.ask 3 .scope)).result = .text (some "db.pool") ∧
    (g.step (.record 3 ⟨"hits", .increment 1, .one, []⟩)).events.filterMap Event.emitted? =
      ["db.pool.hits:1|c"] := by
  intro f g
  have h : f.Contains 0 (.active "") := ⟨_, rfl, rfl⟩
  have hd : f.Descent 0 ["db", "", "pool"]
      [.derive 0 "db", .close 0, .derive 1 "", .drop 1, .derive 2 "pool", .close 2] 3 :=
    .derive (.other (by decide) (.derive (.other (by decide) (.derive (.other (by decide) .stop)))))
  obtain ⟨-, hscoped, -⟩ := scopes_compose h ["db", "", "pool"]
  have hg := hscoped _ _ hd
  refine ⟨h, hg.scope, ?_⟩
  obtain ⟨packet, hpacket, hemitted⟩ := hg.name "hits" (.increment 1) .one [] .counter (.int 1) rfl
  have hencoded : packet = "db.pool.hits:1|c" := by
    have he := Except.ok.inj hpacket
    rw [← he]
    decide +kernel
  rw [← hencoded]
  exact hemitted

end MetricWire
