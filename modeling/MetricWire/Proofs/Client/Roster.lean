import MetricWire.Client.Family

/-!
The members of a family on their own. Which members there are and which of them are active follows from the
actions alone: no answer of the sampler and no outcome of the sink takes part.

  1. `Reporter.record_eq`, `Reporter.close_eq` — an option does what the client inside does.
  2. `Family.step_members`, `Family.run_members` — the hub never decides what becomes of a member.
  3. `Roster.member?_after_of_ne` — one action changes the member that it is about, and no other.
-/

namespace MetricWire

/-! ## Options do what the client inside does -/

namespace Reporter

/-- The reporter after a close, whatever became of the flush. -/
def closed : Reporter → Reporter
  | client (.active _) => client .closed
  | client c => client c
  | vacant => vacant
  | wrapped r => wrapped r.closed

theorem isActive_eq : ∀ r : Reporter, r.isActive = r.inside.isActive
  | client _ => rfl
  | vacant => rfl
  | wrapped r => isActive_eq r

theorem submit_eq (h : Hub) (key : String) (kind : Kind) (value : Value) (rate : Binary32) (tags : List Tag) :
    ∀ r : Reporter, r.submit h key kind value rate tags = r.inside.submit h key kind value rate tags
  | client _ => rfl
  | vacant => rfl
  | wrapped r => submit_eq h key kind value rate tags r

theorem record_eq (r : Reporter) (h : Hub) (call : Call) :
    r.record h call = (client r.inside).record h call := by
  simp only [record, submit_eq, isActive_eq, inside]

theorem close_eq (h : Hub) : ∀ r : Reporter,
    r.close h = ⟨(r.inside.close h).result, (r.closed, (r.inside.close h).state.2), (r.inside.close h).events⟩
  | client (.active _) => rfl
  | client .absent => rfl
  | client .closed => rfl
  | vacant => rfl
  | wrapped r => by simp only [close, inside, closed, close_eq h r]

theorem isActive_iff (r : Reporter) : r.isActive = true ↔ ∃ scope, r.inside = .active scope := by
  rw [isActive_eq]
  cases r.inside <;> simp [Client.isActive]

theorem inside_of_inactive {r : Reporter} (h : r.isActive = false) :
    r.inside = .absent ∨ r.inside = .closed := by
  rw [isActive_eq] at h
  cases hc : r.inside <;> simp [hc, Client.isActive] at h ⊢

theorem isActive_wrap (r : Reporter) : r.wrap.isActive = r.isActive := by cases r <;> rfl

theorem isActive_closed : ∀ r : Reporter, r.closed.isActive = false
  | client (.active _) => rfl
  | client .absent => rfl
  | client .closed => rfl
  | vacant => rfl
  | wrapped r => isActive_closed r

theorem inside_closed : ∀ {r : Reporter}, r.isActive = true → r.closed.inside = .closed
  | client (.active _), _ => rfl
  | wrapped r, h => inside_closed (r := r) h

theorem closed_eq_self : ∀ {r : Reporter}, r.isActive = false → r.closed = r
  | client .absent, _ => rfl
  | client .closed, _ => rfl
  | vacant, _ => rfl
  | wrapped r, h => congrArg wrapped (closed_eq_self (r := r) h)

theorem record_inactive {r : Reporter} (hr : r.isActive = false) (h : Hub) (call : Call) :
    r.record h call = ⟨.ok (), h, []⟩ := by
  have hsubmit : ∀ key kind value rate tags, r.submit h key kind value rate tags = ⟨.ok (), h, []⟩ := by
    intro key kind value rate tags
    rw [submit_eq]
    rcases inside_of_inactive hr with hc | hc <;> rw [hc] <;> rfl
  -- a measurement that cannot be expressed is an error of active reporters only
  simp only [record, hsubmit, hr]
  split <;> rfl

end Reporter

/-- The client that is derived from another one. -/
def Client.below (c : Client) (scope : String) : Client :=
  match c with
  | active parent => active (joinScopes parent scope)
  | _ => absent

theorem Client.derive_fst (c : Client) (h : Hub) (scope : String) : (c.derive h scope).1 = c.below scope := by
  cases c <;> rfl

/-! ## What an action does to the members -/

/-- The reporters of a family by their number; none is one that was dropped. -/
abbrev Roster := List (Option Reporter)

def Action.member? : Action → Option Nat
  | .record i _ | .close i | .flush i | .drop i | .derive i _ | .wrap i | .ask i _ => some i
  | .receive | .hangUp | .lookedUp _ => none

def Action.ends? : Action → Option Nat
  | .close i | .drop i => some i
  | _ => none

namespace Roster

def member? (m : Roster) (i : Nat) : Option Reporter := (m[i]?).join

def after (m : Roster) : Action → Roster
  | .close i => m.modify i (·.map Reporter.closed)
  | .drop i => m.set i none
  | .derive i scope =>
    match m.member? i with
    | some r => m ++ [some (.client (r.inside.below scope))]
    | none => m
  | .wrap i => m.modify i (·.map Reporter.wrap)
  | _ => m

variable {m : Roster} {i j : Nat} {r : Reporter}

theorem getElem?_eq (h : m.member? i = some r) : m[i]? = some (some r) := by
  simpa [member?, Option.join_eq_some_iff] using h

theorem lt_length (h : m.member? i = some r) : i < m.length :=
  (List.getElem?_eq_some_iff.mp (getElem?_eq h)).1

/-- A place without a reporter lies behind the end, or its reporter was dropped. -/
theorem getElem?_eq_none (h : m.member? i = none) : m[i]? = none ∨ m[i]? = some none := by
  cases hi : m[i]? with
  | none => exact Or.inl rfl
  | some o => right; simpa [member?, hi] using h

theorem set_eq_modify (h : m.member? i = some r) (g : Reporter → Reporter) :
    m.set i (some (g r)) = m.modify i (·.map g) := by
  apply List.ext_getElem?
  intro j
  by_cases hj : i = j
  · subst hj
    rw [List.getElem?_set_self (lt_length h), List.getElem?_modify_eq, getElem?_eq h]
    rfl
  · simp [hj]

theorem modify_eq_self (h : m.member? i = none) (g : Reporter → Reporter) :
    m.modify i (·.map g) = m := by
  apply List.ext_getElem?
  intro j
  by_cases hj : i = j
  · subst hj
    rcases getElem?_eq_none h with hi | hi <;> simp [hi]
  · simp [hj]

theorem set_none_eq_self (h : m.member? i = none) : m.set i none = m := by
  apply List.ext_getElem?
  intro j
  by_cases hj : i = j
  · subst hj
    rcases getElem?_eq_none h with hi | hi
    · rw [List.set_eq_of_length_le (List.getElem?_eq_none_iff.mp hi)]
    · rw [List.getElem?_set_self (List.getElem?_eq_some_iff.mp hi).1, hi]
  · simp [hj]

theorem member?_modify_of_ne (h : i ≠ j) (g : Option Reporter → Option Reporter) :
    Roster.member? (m.modify i g) j = m.member? j := by
  simp [member?, h]

theorem member?_set_of_ne (h : i ≠ j) (o : Option Reporter) :
    Roster.member? (m.set i o) j = m.member? j := by
  simp [member?, h]

/-- An action changes no member but the one that it is about. -/
theorem member?_after_of_ne {a : Action} (hj : j < m.length) (h : a.member? ≠ some j) :
    (m.after a).member? j = m.member? j := by
  cases a with
  | close i | wrap i => exact member?_modify_of_ne (fun e => h (congrArg some e)) _
  | drop i => exact member?_set_of_ne (fun e => h (congrArg some e)) none
  | derive i scope =>
    simp only [after]
    split
    · simp [member?, List.getElem?_append_left hj]
    · rfl
  | _ => rfl

@[simp] theorem member?_after_close (m : Roster) (i : Nat) :
    (m.after (.close i)).member? i = (m.member? i).map Reporter.closed := by
  cases h : m[i]? <;> simp [after, member?, h]

@[simp] theorem member?_after_wrap (m : Roster) (i : Nat) :
    (m.after (.wrap i)).member? i = (m.member? i).map Reporter.wrap := by
  cases h : m[i]? <;> simp [after, member?, h]

end Roster

namespace Family

theorem member?_eq (f : Family) (i : Nat) : f.member? i = Roster.member? f.members i := rfl

theorem step_of_none {f : Family} {a : Action} {i : Nat} (ha : a.member? = some i) (h : f.member? i = none) :
    f.step a = ⟨.outcome (.ok ()), f, []⟩ := by
  cases a <;> cases ha <;> simp only [step, h]
  rw [Roster.modify_eq_self h]

/-- The hub never decides what becomes of a member. -/
theorem step_members (f : Family) (a : Action) : (f.step a).state.members = Roster.after f.members a := by
  -- a member that is not there is left alone on both sides
  cases a with
  | close i =>
    cases h : f.member? i with
    | none => rw [step_of_none rfl h]; exact (Roster.modify_eq_self h _).symm
    | some r =>
      simp only [step, h, Reporter.close_eq, Roster.after]
      exact Roster.set_eq_modify h Reporter.closed
  | drop i =>
    cases h : f.member? i with
    | none => rw [step_of_none rfl h]; exact (Roster.set_none_eq_self h).symm
    | some r => simp only [step, h, Roster.after]
  | derive i scope =>
    cases h : f.member? i with
    | none => rw [step_of_none rfl h]; simp only [Roster.after, ← member?_eq, h]
    | some r => simp only [step, h, Roster.after, ← member?_eq, Client.derive_fst]
  | record i call =>
    cases h : f.member? i <;> simp only [step, h, Roster.after]
  | flush i =>
    cases h : f.member? i <;> simp only [step, h, Roster.after]
  | ask i question =>
    cases h : f.member? i <;> simp only [step, h, Roster.after]
  | wrap i => rfl
  | receive =>
    simp only [step, receive, Roster.after]
    split <;> rfl
  | hangUp =>
    simp only [step, hangUp, Roster.after]
    split <;> rfl
  | lookedUp outcome =>
    simp only [step, lookedUp, Roster.after]
    split <;> rfl

theorem run_members (f : Family) (actions : List Action) :
    (f.run actions).state.members = actions.foldl Roster.after f.members := by
  induction actions generalizing f with
  | nil => rfl
  | cons a rest ih =>
    show ((f.step a).state.run rest).state.members = rest.foldl Roster.after (Roster.after f.members a)
    rw [ih, step_members]

end Family

end MetricWire
