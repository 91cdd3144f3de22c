import MetricWire.Proofs.Client.Effect

/-!
Clients without a hub: those that were closed, those that are absent, and options with nothing inside.

All three take every operation and do nothing. What such a member answers is `Operation.nullReply`, a function of
the operation alone, so neither the hub nor anything that other members do can be told from it. The simulation
keeps one fact, `Family.Contains`: the client inside the member stays the same one.

  1. `Contains.own`, `Contains.reply`, `Contains.silent` — one operation keeps the client inside, answers with
     the null reply, and leaves no trace.
  2. `Contains.replies` — the replies of a whole run, whatever other members do in between.
  3. `closed_absent_vacant` — the three kinds cannot be told apart but by their descriptions.
-/

namespace MetricWire

/-- What can be done with a member and leaves it in its place. -/
inductive Operation
  | record (call : Call)
  | close
  | flush
  | derive (scope : String)
  | wrap
  | ask (question : Question)

namespace Operation

def on (i : Nat) : Operation → Action
  | record call => .record i call
  | close => .close i
  | flush => .flush i
  | derive scope => .derive i scope
  | wrap => .wrap i
  | ask question => .ask i question

/-- The operations that options have as well as clients. -/
def isShared : Operation → Bool
  | record _ | close | ask .isActive => true
  | _ => false

/-- What a client answers that has no hub and describes itself like this. -/
def nullReply (description : String) : Operation → Reply
  | ask .isActive => .flag false
  | ask .scope => .text none
  | ask .tagFormat => .tagFormat none
  | ask .telemetry => .telemetry {}
  | ask .describe => .text (some description)
  | _ => .outcome (.ok ())

theorem nullReply_eq {op : Operation} (h : op ≠ ask .describe) (d d' : String) :
    op.nullReply d = op.nullReply d' := by
  cases op with
  | ask question =>
    cases question with
    | describe => exact absurd rfl h
    | isActive | scope | tagFormat | telemetry => rfl
  | record | close | flush | derive | wrap => rfl

/-- Where nobody asks for the description, the answers do not depend on it. -/
theorem map_nullReply_eq {ops : List Operation} (h : ask .describe ∉ ops) (d d' : String) :
    ops.map (·.nullReply d) = ops.map (·.nullReply d') :=
  List.map_congr_left fun _ ho => nullReply_eq (fun e => h (e ▸ ho)) d d'

theorem describe_notMem_of_isShared {ops : List Operation} (h : ∀ op ∈ ops, op.isShared = true) :
    ask .describe ∉ ops :=
  fun hd => absurd (h _ hd) (by decide)

@[simp] theorem member?_on (i : Nat) (op : Operation) : (op.on i).member? = some i := by cases op <;> rfl

end Operation

/-- The actions on a member are these operations in this order, so it is not dropped. What is done with other
members in between is left open. -/
def Performs (i : Nat) (ops : List Operation) (actions : List Action) : Prop :=
  (actions.filter fun a => a.member? = some i) = ops.map (·.on i)

/-- The replies to the actions on a member. -/
def Family.repliesTo (f : Family) (i : Nat) (actions : List Action) : List Reply :=
  ((actions.zip (f.run actions).result).filter fun p => p.1.member? = some i).map (·.2)

/-- The client inside a member. -/
def Family.Contains (f : Family) (i : Nat) (c : Client) : Prop := ∃ r, f.member? i = some r ∧ r.inside = c

/-- What holds of a member that is safe to use although it has no hub, for operations that it has. -/
structure Family.NilSafe (f : Family) (i : Nat) (has : Operation → Prop) (description : String) : Prop where
  replies : ∀ ops later, (∀ op ∈ ops, has op) → Performs i ops later →
    f.repliesTo i later = ops.map (·.nullReply description)
  /-- The member is never active again. -/
  inactive : ∀ ops later, Performs i ops later →
    ∃ r, (f.run later).state.member? i = some r ∧ r.isActive = false
  /-- No operation asks the sampler, calls the sink, or writes a line. -/
  silent : ∀ ops later op, has op → Performs i ops later →
    ((f.run later).state.step (op.on i)).events = [] ∧
    ((f.run later).state.step (op.on i)).state.hub = (f.run later).state.hub
  /-- What is derived from the member is absent. -/
  derived : ∀ ops later scope, has (.derive scope) → Performs i ops later →
    ((f.run later).state.step (.derive i scope)).state.members =
      (f.run later).state.members ++ [some (.client .absent)]

theorem Reporter.inside_wrap (r : Reporter) : r.wrap.inside = r.inside := by cases r <;> rfl

theorem Reporter.isActive_of_inside {r : Reporter} {c : Client} (hr : r.inside = c) (hc : c.isActive = false) :
    r.isActive = false := by
  rw [isActive_eq, hr, hc]

/-! ## One operation -/

namespace Family.Contains
variable {f : Family} {i : Nat} {c : Client}

theorem other {a : Action} (h : f.Contains i c) (ha : a.member? ≠ some i) : (f.step a).state.Contains i c := by
  obtain ⟨r, hi, hr⟩ := h
  refine ⟨r, ?_, hr⟩
  rw [member?_eq, step_members, Roster.member?_after_of_ne (Roster.lt_length hi) ha]
  exact hi

/-- Only a close or a drop of the member itself changes the client. -/
theorem kept {a : Action} (h : f.Contains i c) (ha : a.ends? ≠ some i) : (f.step a).state.Contains i c := by
  by_cases hm : a.member? = some i
  · obtain ⟨r, hi, hr⟩ := h
    unfold Contains
    simp only [member?_eq, step_members]
    cases a with
    | close | drop => exact absurd hm ha
    | record | flush | ask => exact ⟨r, hi, hr⟩
    | wrap k =>
      obtain rfl : k = i := Option.some.inj hm
      rw [Roster.member?_after_wrap, ← member?_eq, hi]
      exact ⟨r.wrap, rfl, r.inside_wrap.trans hr⟩
    | derive k scope =>
      obtain rfl : k = i := Option.some.inj hm
      refine ⟨r, ?_, hr⟩
      simp only [Roster.after, ← member?_eq, hi]
      rw [Roster.member?, List.getElem?_append_left (Roster.lt_length hi)]
      exact hi
    | receive | hangUp | lookedUp => cases hm
  · exact h.other hm

/-- A client without a hub stays what it is. -/
theorem own (h : f.Contains i c) (hc : c.isActive = false) (op : Operation) :
    (f.step (op.on i)).state.Contains i c := by
  cases op with
  | close =>
    obtain ⟨r, hi, hr⟩ := h
    refine ⟨r, ?_, hr⟩
    rw [member?_eq, step_members, Operation.on, Roster.member?_after_close, ← member?_eq, hi]
    exact congrArg some (Reporter.closed_eq_self (Reporter.isActive_of_inside hr hc))
  | record | flush | derive | wrap | ask => exact h.kept (by simp [Operation.on, Action.ends?])

/-- The answer is the null reply: neither the hub nor the arguments of a call take part. -/
theorem reply (h : f.Contains i c) (hc : c.isActive = false) (op : Operation) :
    (f.step (op.on i)).result = op.nullReply (c.describe f.hub) := by
  obtain ⟨r, hi, hr⟩ := h
  have hin : r.isActive = false := Reporter.isActive_of_inside hr hc
  have hcase : c = .absent ∨ c = .closed := hr ▸ Reporter.inside_of_inactive hin
  cases op with
  | record call =>
    simp only [Operation.on, step, hi, Reporter.record_inactive hin]
    rfl
  | wrap => rfl
  | ask question =>
    simp only [Operation.on, step, hi]
    cases question with
    | isActive => exact congrArg Reply.flag hin
    | describe => simp only [Reporter.answer, hr]; rfl
    | scope | tagFormat | telemetry => rcases hcase with rfl | rfl <;> simp only [Reporter.answer, hr] <;> rfl
  | close => rcases hcase with rfl | rfl <;> simp only [Operation.on, step, hi, Reporter.close_eq, hr] <;> rfl
  | flush => rcases hcase with rfl | rfl <;> simp only [Operation.on, step, hi, hr] <;> rfl
  | derive scope => simp only [Operation.on, step, hi]; rfl

theorem silent (h : f.Contains i c) (hc : c.isActive = false) (op : Operation) :
    (f.step (op.on i)).events = [] ∧ (f.step (op.on i)).state.hub = f.hub := by
  obtain ⟨r, hi, hr⟩ := h
  exact (step_of_inactive (op.member?_on i) hi (Reporter.isActive_of_inside hr hc)).symm

theorem derived (h : f.Contains i c) (hc : c.isActive = false) (scope : String) :
    (f.step (.derive i scope)).state.members = f.members ++ [some (.client .absent)] := by
  obtain ⟨r, hi, hr⟩ := h
  have hin : r.isActive = false := Reporter.isActive_of_inside hr hc
  rw [step_members]
  rcases Reporter.inside_of_inactive hin with hr | hr <;> simp only [Roster.after, ← member?_eq, hi, hr, Client.below]

end Family.Contains

/-! ## A whole run -/

theorem Performs.nil {i : Nat} {ops : List Operation} (h : Performs i ops []) : ops = [] := by
  cases ops with
  | nil => rfl
  | cons op ops => cases h

theorem Performs.cons {i : Nat} {a : Action} {rest : List Action} : ∀ {ops : List Operation},
    Performs i ops (a :: rest) →
    (a.member? ≠ some i ∧ Performs i ops rest) ∨
      ∃ op later, ops = op :: later ∧ a = op.on i ∧ Performs i later rest
  | ops, h => by
    unfold Performs at h
    by_cases ha : a.member? = some i
    · right
      rw [List.filter_cons_of_pos (by simp [ha])] at h
      cases ops with
      | nil => cases h
      | cons op later =>
        obtain ⟨hop, hrest⟩ := List.cons.inj h
        exact ⟨op, later, rfl, hop, hrest⟩
    · left
      rw [List.filter_cons_of_neg (by simp [ha])] at h
      exact ⟨ha, h⟩

namespace Family

theorem repliesTo_cons (f : Family) (i : Nat) (a : Action) (rest : List Action) : f.repliesTo i (a :: rest) =
    (if a.member? = some i then [(f.step a).result] else []) ++ (f.step a).state.repliesTo i rest := by
  simp only [repliesTo, run, List.zip_cons_cons, List.filter_cons]
  by_cases ha : a.member? = some i <;> simp [ha]

namespace Contains
variable {i : Nat} {c : Client}

theorem run {f : Family} {later : List Action} {ops : List Operation} (h : f.Contains i c)
    (hc : c.isActive = false) (hp : Performs i ops later) : (f.run later).state.Contains i c := by
  induction later generalizing f ops with
  | nil => exact h
  | cons a rest ih =>
    show ((f.step a).state.run rest).state.Contains i c
    rcases hp.cons with ⟨ha, hrest⟩ | ⟨op, ops, rfl, rfl, hrest⟩
    · exact ih (h.other ha) hrest
    · exact ih (h.own hc op) hrest

theorem replies {f : Family} {later : List Action} {ops : List Operation} {description : String}
    (h : f.Contains i c) (hc : c.isActive = false) (hd : ∀ h, c.describe h = description)
    (hp : Performs i ops later) : f.repliesTo i later = ops.map (·.nullReply description) := by
  induction later generalizing f ops with
  | nil => rw [hp.nil]; rfl
  | cons a rest ih =>
    rw [repliesTo_cons]
    rcases hp.cons with ⟨ha, hrest⟩ | ⟨op, ops, rfl, rfl, hrest⟩
    · -- an action on another member has no reply here, and the client is the same behind it
      rw [if_neg ha, ih (h.other ha) hrest, List.nil_append]
    · rw [if_pos (op.member?_on i), h.reply hc op, hd, ih (h.own hc op) hrest]
      rfl

theorem nilSafe {f : Family} {description : String} (h : f.Contains i c) (hc : c.isActive = false)
    (hd : ∀ h, c.describe h = description) (has : Operation → Prop) : f.NilSafe i has description where
  replies _ _ _ hp := h.replies hc hd hp
  inactive _ _ hp := by
    obtain ⟨r, hi, hr⟩ := h.run hc hp
    exact ⟨r, hi, Reporter.isActive_of_inside hr hc⟩
  silent _ _ op _ hp := (h.run hc hp).silent hc op
  derived _ _ scope _ hp := (h.run hc hp).derived hc scope

end Contains
end Family

open Family in
/-- **Clients without a hub.** A client that was closed, whatever it was before and whatever became of the close,
an absent client, and an option with nothing inside answer every operation with the null reply, so they agree in
all that they have in common. Only the descriptions of closed and absent clients differ. -/
theorem closed_absent_vacant {f a v : Family} {i j k : Nat} {r : Reporter} (hf : f.member? i = some r)
    (hr : r.isActive = true) (ha : a.member? j = some (.client .absent)) (hv : v.member? k = some .vacant) :
    let c := (f.step (.close i)).state
    c.NilSafe i (fun _ => True) "StatsdClient \x7b closed \x7d" ∧
    a.NilSafe j (fun _ => True) "StatsdClient \x7b absent \x7d" ∧
    (∀ description, v.NilSafe k (fun op => op.isShared = true) description) ∧
    (∀ ops inC inA, Performs i ops inC → Performs j ops inA → .ask .describe ∉ ops →
      c.repliesTo i inC = a.repliesTo j inA) ∧
    ∀ ops inC inA inV, Performs i ops inC → Performs j ops inA → Performs k ops inV →
      (∀ op ∈ ops, op.isShared = true) →
        c.repliesTo i inC = a.repliesTo j inA ∧ a.repliesTo j inA = v.repliesTo k inV := by
  intro c
  have hc : c.Contains i .closed := by
    refine ⟨r.closed, ?_, Reporter.inside_closed hr⟩
    rw [member?_eq, step_members, Roster.member?_after_close, ← member?_eq, hf]
    rfl
  have hclosed : c.NilSafe i (fun _ => True) _ := hc.nilSafe rfl (fun _ => rfl) _
  have habsent : a.NilSafe j (fun _ => True) _ := Contains.nilSafe ⟨_, ha, rfl⟩ rfl (fun _ => rfl) _
  have hvacant : v.NilSafe k (fun op => op.isShared = true) _ :=
    Contains.nilSafe ⟨_, hv, rfl⟩ rfl (fun _ => rfl) _
  -- what options have in common with clients says nothing of a description, so any will do
  refine ⟨hclosed, habsent, ?_, ?_, ?_⟩
  · intro description
    refine { hvacant with replies := fun ops later hs hp => ?_ }
    rw [hvacant.replies ops later hs hp]
    exact Operation.map_nullReply_eq (Operation.describe_notMem_of_isShared hs) _ _
  · intro ops inC inA hC hA hd
    rw [hclosed.replies ops inC (fun _ _ => trivial) hC, habsent.replies ops inA (fun _ _ => trivial) hA]
    exact Operation.map_nullReply_eq hd _ _
  · intro ops inC inA inV hC hA hV hs
    rw [hclosed.replies ops inC (fun _ _ => trivial) hC, habsent.replies ops inA (fun _ _ => trivial) hA,
      hvacant.replies ops inV hs hV]
    exact ⟨Operation.map_nullReply_eq (Operation.describe_notMem_of_isShared hs) _ _, rfl⟩

/-- The close of the client fails; all that is refused of an active client is accepted from then on. -/
theorem closed_absent_vacant_refusing :
    let operations : List Operation := [.record ⟨"n", .decrement Int64.minValue, .one, []⟩,
      .record ⟨"n", .histogram (Binary.ofBits 0x7ff8000000000000), .one, []⟩,
      .record ⟨"n", .stat .counter (.text "1"), .one, []⟩, .close, .ask .isActive]
    let later := operations.map (·.on 0)
    let c := ((Family.ofClient "app" (.refusing .brokenPipe) {}).step (.close 0)).state
    ((Family.ofClient "app" (.refusing .brokenPipe) {}).step (.close 0)).result =
      .outcome (.error (.transport (.bare .brokenPipe))) ∧
    c.repliesTo 0 later =
      [.outcome (.ok ()), .outcome (.ok ()), .outcome (.ok ()), .outcome (.ok ()), .flag false] ∧
    c.repliesTo 0 later = (Family.ofReporter (.client .absent)).repliesTo 0 later ∧
    (Family.ofReporter (.client .absent)).repliesTo 0 later = (Family.ofReporter .vacant).repliesTo 0 later := by
  intro operations later c
  have hp : Performs 0 operations later := rfl
  obtain ⟨hclosed, -, -, -, hshared⟩ := closed_absent_vacant
    (f := Family.ofClient "app" (.refusing .brokenPipe) {}) (a := Family.ofReporter (.client .absent))
    (v := Family.ofReporter .vacant) (i := 0) (j := 0) (k := 0) rfl rfl rfl rfl
  refine ⟨rfl, hclosed.replies operations later (fun _ _ => trivial) hp,
    hshared operations later later later hp hp hp ?_⟩
  simp [operations, Operation.isShared]

end MetricWire
