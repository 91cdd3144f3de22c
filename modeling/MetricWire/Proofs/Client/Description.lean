import MetricWire.Proofs.Client.Lifetime
import MetricWire.Proofs.Client.Scopes
import MetricWire.Proofs.Text.Quoted

/-!
What a client says of itself.

The description of an active client tells its scope, its dialect and its default tags, with words around them that are
always the same. Each of the three delimits itself, the list of tags by the bracket behind it, so they can be told from
the whole. All that is not the same for every client is either the name of a dialect or quoted, and in a quoted text no
character is hidden.

  1. `selfDelimiting_tag`, `selfDelimiting_tags` — a tag, and a list of tags up to its bracket.
  2. `Client.describe_active`, `Client.describe_active_iff` — the description in parts, and that it tells them.
  3. `Client.shown_describe`, `LogLine.shown_closing` — nothing without a visible form is written.
  4. `descriptions_told_apart` — all of it, for members of families.
-/

namespace MetricWire

/-! ## Tags and their dialect -/

def Tag.described (t : Tag) : List Char :=
  ['('] ++ (Quoted.text t.key).toList ++ ([',', ' '] ++ (Quoted.text t.value).toList) ++ [')']

theorem selfDelimiting_tag : SelfDelimiting Tag.described := by
  have hkey := Quoted.selfDelimiting_text.behind ['(']
  have hvalue := Quoted.selfDelimiting_text.behind [',', ' ']
  refine ((hkey.append hvalue).before [')']).comp (f := fun t : Tag => (t.key, t.value)) ?_
  rintro ⟨k, v⟩ ⟨k', v'⟩ h
  simpa using h

theorem describeTags_cons (t : Tag) (ts : List Tag) : (describeTags (t :: ts)).toList =
    t.described ++ ts.flatMap fun u => [',', ' '] ++ u.described := by
  induction ts generalizing t with
  | nil => simp [describeTags, Tag.described]
  | cons u us ih => simp [describeTags, ih, Tag.described]

theorem selfDelimiting_tags : SelfDelimiting fun tags => (describeTags tags).toList ++ [']'] := by
  intro l m x y h
  have hempty : ∀ t ts {x y : List Char}, ']' :: x ≠ (describeTags (t :: ts)).toList ++ ([']'] ++ y) := by
    intro t ts x y h
    rw [describeTags_cons] at h
    exact absurd (List.cons.inj h).1 (by decide)
  -- the first tag has no comma before it
  have hlist : SelfDelimiting fun ts : List Tag => ts.flatMap (fun u => [',', ' '] ++ u.described) ++ [']'] :=
    (selfDelimiting_tag.behind [',', ' ']).flatMap fun u => ⟨',', _, rfl, by decide⟩
  simp only [List.append_assoc] at h
  cases l with
  | nil =>
    cases m with
    | nil => exact ⟨rfl, (List.cons.inj h).2⟩
    | cons t ts => exact absurd h (hempty t ts)
  | cons u us =>
    cases m with
    | nil => exact absurd h.symm (hempty u us)
    | cons t ts =>
      rw [describeTags_cons, describeTags_cons] at h
      obtain ⟨hpair, hxy⟩ := (selfDelimiting_tag.append hlist) (a := (u, us)) (b := (t, ts)) (by simpa using h)
      obtain ⟨rfl, rfl⟩ := Prod.mk.inj hpair
      exact ⟨rfl, hxy⟩

theorem selfDelimiting_label : SelfDelimiting fun format : TagFormat => format.label.toList := by
  intro a b x y h
  cases a <;> cases b <;> simp [TagFormat.label] at h ⊢
  all_goals exact h

/-! ## The whole description -/

namespace Client

/-- What follows the title in the description of an active client. -/
def details (scope : String) (format : TagFormat) (tags : List Tag) : List Char :=
  "prefix: ".toList ++ (Quoted.text scope).toList ++
    (", sink: ..., sampler: ..., tag_format: ".toList ++ format.label.toList ++
      (", tags: [".toList ++ ((describeTags tags).toList ++ "]".toList)))

theorem describe_active (scope : String) (h : Hub) : ((active scope).describe h).toList =
    "StatsdClient \x7b ".toList ++ details scope h.options.tagFormat h.options.tags ++ " \x7d".toList := by
  -- the description is written with longer literals
  have htitle : "StatsdClient \x7b prefix: " = "StatsdClient \x7b " ++ "prefix: " := rfl
  have hend : "] \x7d" = "]" ++ " \x7d" := rfl
  unfold describe details
  rw [htitle, hend]
  simp only [String.toList_append, List.append_assoc]

theorem selfDelimiting_details : SelfDelimiting fun p : String × TagFormat × List Tag => details p.1 p.2.1 p.2.2 := by
  have hscope := Quoted.selfDelimiting_text.behind "prefix: ".toList
  have hformat := selfDelimiting_label.behind ", sink: ..., sampler: ..., tag_format: ".toList
  have htags := selfDelimiting_tags.behind ", tags: [".toList
  intro a b x y h
  exact (hscope.append (hformat.append htags)) h

/-- The description tells these three and nothing else. -/
theorem describe_active_iff {s t : String} {h h' : Hub} : (active s).describe h = (active t).describe h' ↔
    s = t ∧ h.options.tagFormat = h'.options.tagFormat ∧ h.options.tags = h'.options.tags := by
  rw [← String.toList_inj, describe_active, describe_active]
  constructor
  · intro hlist
    rw [List.append_assoc, List.append_assoc] at hlist
    obtain ⟨hparts, -⟩ := selfDelimiting_details (a := (s, _, _)) (b := (t, _, _)) (List.append_cancel_left hlist)
    simpa using hparts
  · intro ⟨hscope, hformat, htags⟩
    rw [hscope, hformat, htags]

theorem describe_inactive {c : Client} (hc : c.isActive = false) (h : Hub) :
    ∃ state ∈ ["absent \x7d", "closed \x7d"], c.describe h = "StatsdClient \x7b " ++ state := by
  cases c with
  | active => cases hc
  | absent => exact ⟨_, List.mem_cons_self, rfl⟩
  | closed => exact ⟨_, List.mem_cons_of_mem _ List.mem_cons_self, rfl⟩

theorem describe_active_ne {c : Client} (hc : c.isActive = false) (s : String) (h h' : Hub) :
    (active s).describe h ≠ c.describe h' := by
  intro heq
  obtain ⟨state, hstate, hdescribe⟩ := describe_inactive hc h'
  have hlist := congrArg String.toList heq
  rw [describe_active, hdescribe, String.toList_append, List.append_assoc] at hlist
  -- the first letter behind the title is another one
  have hfirst : ∀ state ∈ ["absent \x7d", "closed \x7d"], state.toList.head? ≠ some 'p' := by decide
  exact hfirst state hstate (List.append_cancel_left hlist ▸ rfl)

end Client

/-! ## Nothing hidden in it -/

theorem shown_tag (t : Tag) : Shown t.described := by
  have hkey : Shown (['('] ++ (Quoted.text t.key).toList) :=
    (Shown.of_printable (by decide)).append (Quoted.shown_text _)
  have hvalue : Shown ([',', ' '] ++ (Quoted.text t.value).toList) :=
    (Shown.of_printable (by decide)).append (Quoted.shown_text _)
  exact (hkey.append hvalue).append (.of_printable (by decide))

theorem shown_tags (tags : List Tag) : Shown (describeTags tags).toList := by
  cases tags with
  | nil => exact .of_printable (by decide)
  | cons t ts =>
    rw [describeTags_cons]
    exact (shown_tag t).append (.flatMap (fun u => (Shown.of_printable (by decide)).append (shown_tag u)) ts)

theorem shown_label (format : TagFormat) : Shown format.label.toList := by
  cases format <;> exact .of_printable (by decide)

namespace Client

theorem shown_details (scope : String) (format : TagFormat) (tags : List Tag) : Shown (details scope format tags) := by
  have hscope : Shown ("prefix: ".toList ++ (Quoted.text scope).toList) :=
    (Shown.of_printable (by decide)).append (Quoted.shown_text scope)
  have hformat : Shown (", sink: ..., sampler: ..., tag_format: ".toList ++ format.label.toList) :=
    (Shown.of_printable (by decide)).append (shown_label format)
  have htags : Shown (", tags: [".toList ++ ((describeTags tags).toList ++ "]".toList)) :=
    (Shown.of_printable (by decide)).append ((shown_tags tags).append (.of_printable (by decide)))
  exact hscope.append (hformat.append htags)

theorem shown_describe (c : Client) (h : Hub) : Shown (c.describe h).toList := by
  cases c with
  | active scope =>
    have htitle : Shown "StatsdClient \x7b ".toList := .of_printable (by decide)
    rw [describe_active]
    exact (htitle.append (shown_details _ _ _)).append (.of_printable (by decide))
  | absent =>
    have hprintable : "StatsdClient \x7b absent \x7d".toList.all Invisible.isPrintable = true := by decide
    exact .of_printable hprintable
  | closed =>
    have hprintable : "StatsdClient \x7b closed \x7d".toList.all Invisible.isPrintable = true := by decide
    exact .of_printable hprintable

end Client

namespace LogLine

theorem closing_toList (scope : String) : (closing scope).text.toList =
    "closing statsd client with prefix ".toList ++ (Quoted.text scope).toList := String.toList_append

theorem closing_injective {s t : String} (h : (closing s).text = (closing t).text) : s = t := by
  rw [← String.toList_inj, closing_toList, closing_toList] at h
  exact (Quoted.selfDelimiting_text.behind _).injective h

theorem shown_closing (scope : String) : Shown (closing scope).text.toList := by
  rw [closing_toList]
  exact (Shown.of_printable (by decide)).append (Quoted.shown_text scope)

end LogLine

/-! ## Members of families -/

/-- No character of the text is a control character of ASCII, so it is one line. -/
def Uncontrolled (s : String) : Prop := ∀ c ∈ s.toList, ¬ (c.toNat < 0x20 ∨ c.toNat = 0x7f)

namespace Family
variable {f : Family} {i : Nat} {c : Client} {scope : String}

/-- What a member answers when it is asked for its description. -/
def description? (f : Family) (i : Nat) : Option String :=
  match (f.step (.ask i .describe)).result with
  | .text t => t
  | _ => none

/-- The lines that are logged when a member is closed. -/
def closeLines (f : Family) (i : Nat) : List String :=
  (f.step (.close i)).events.filterMap fun
    | .log line => some line.text
    | _ => none

theorem Contains.description (h : f.Contains i c) : f.description? i = some (c.describe f.hub) := by
  rw [description?, h.step_ask]
  rfl

theorem Contains.closeLines (h : f.Contains i (.active scope)) : f.closeLines i = [(LogLine.closing scope).text] := by
  obtain ⟨r, hi, hr⟩ := h
  rw [Family.closeLines, (step_close_active hi hr).1, Hub.close_events]
  split <;> rfl

end Family

/-- **Descriptions tell clients apart.** Two active clients have the same description just if they have the same scope,
the same dialect and the same default tags in the same order, whatever else is different; no absent or closed client has
the description of an active one; and the one line that is logged when an active client is closed tells its scope.
Neither the description of a client nor that line has a control character in it. -/
theorem descriptions_told_apart {f g : Family} {i j : Nat} {s t : String} (hf : f.Contains i (.active s))
    (hg : g.Contains j (.active t)) :
    (f.description? i = g.description? j ↔
      s = t ∧ f.hub.options.tagFormat = g.hub.options.tagFormat ∧ f.hub.options.tags = g.hub.options.tags) ∧
    (∀ (e : Family) k c, e.Contains k c → c.isActive = false → f.description? i ≠ e.description? k) ∧
    (∃ line line', f.closeLines i = [line] ∧ g.closeLines j = [line'] ∧ (line = line' ↔ s = t) ∧
      Uncontrolled line) ∧
    ∀ (e : Family) k c, e.Contains k c → ∃ d, e.description? k = some d ∧ Uncontrolled d := by
  refine ⟨?same, ?inactive, ⟨_, _, hf.closeLines, hg.closeLines, ?closing, ?line⟩, ?description⟩
  case same => rw [hf.description, hg.description, Option.some.injEq, Client.describe_active_iff]
  case inactive =>
    intro e k c he hc h
    rw [hf.description, he.description] at h
    exact Client.describe_active_ne hc s _ _ (Option.some.inj h)
  case closing => exact ⟨LogLine.closing_injective, fun h => h ▸ rfl⟩
  case line => exact fun c => (LogLine.shown_closing s).not_control
  case description =>
    intro e k c he
    exact ⟨_, he.description, fun _ => (c.shown_describe e.hub).not_control⟩

/-- A tag that would be two without its quotes, below a scope that would be two lines. -/
theorem descriptions_told_apart_forged :
    let f := Family.ofClient "app\nup" .discard { tags := [⟨"a", "b\"), (\"c\", \"d"⟩] }
    let g := Family.ofClient "app\nup" .discard { tags := [⟨"a", "b"⟩, ⟨"c", "d"⟩] }
    f.Contains 0 (.active "app\nup") ∧ g.Contains 0 (.active "app\nup") ∧ f.description? 0 ≠ g.description? 0 ∧
      f.closeLines 0 = ["closing statsd client with prefix \"app\\nup\""] ∧
      ∃ d, f.description? 0 = some d ∧ Uncontrolled d := by
  intro f g
  have hf : f.Contains 0 (.active "app\nup") := ⟨_, rfl, rfl⟩
  have hg : g.Contains 0 (.active "app\nup") := ⟨_, rfl, rfl⟩
  obtain ⟨hsame, -, -, hdescription⟩ := descriptions_told_apart hf hg
  refine ⟨hf, hg, fun h => ?_, hf.closeLines.trans (by decide +kernel), hdescription f 0 _ hf⟩
  exact absurd (hsame.mp h).2.2 (by decide)

end MetricWire
