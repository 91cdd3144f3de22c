import MetricWire.Packet

/-!
The clauses of a packet, and where the tags go.

A packet is its name, the tags of an infix dialect, the value with its type and rate, and the tags of the suffix
dialect. The part in the middle is the same in all dialects and for all tags: it is what a packet without tags has
behind its name. The writers of tags go through the list one by one; here a clause is said at once, by `String.join`
where every tag has its separator in front, and by `String.intercalate` where separators stand between tags.

  1. `infixTags_eq`, `suffixTags_eq` — the clause of a list of tags, in the order of the list.
  2. `infixClause_append`, `suffixTags_append` — more tags only add their own clause.
  3. `encode_of_accepted` — the clauses of an encoded packet.
  4. `tags_inserted` — tags leave the rest of a packet alone.
-/

namespace MetricWire

/-! ## The clause of a list of tags -/

/-- What stands before each tag in a dialect that writes them behind the name. -/
def TagFormat.separator? : TagFormat → Option Char
  | suffixOctothorpe => none
  | infixComma => some ','
  | infixSemicolon => some ';'

/-- Every tag behind a separator, key and value joined by an equals sign. -/
def infixClause (separator : Char) (tags : List Tag) : String :=
  String.join (tags.map fun t => String.singleton separator ++ t.key ++ "=" ++ t.value)

/-- Tags with commas between them, key and value joined by a colon. -/
def suffixClause (tags : List Tag) : String := ",".intercalate (tags.map fun t => t.key ++ ":" ++ t.value)

theorem infixTags_eq (separator : Char) (tags : List Tag) : infixTags separator tags = infixClause separator tags := by
  induction tags with
  | nil => rfl
  | cons t ts ih => rw [infixTags, ih, infixClause, infixClause, List.map_cons, String.join_cons]

theorem furtherTags_eq (t : Tag) (ts : List Tag) :
    t.key ++ ":" ++ t.value ++ furtherTags ts = suffixClause (t :: ts) := by
  induction ts generalizing t with
  | nil => simp [furtherTags, suffixClause]
  | cons u us ih =>
    rw [suffixClause, List.map_cons, String.intercalate_cons_of_ne_nil (by simp), ← suffixClause, ← ih, furtherTags]
    simp only [String.append_assoc]

/-- The mark of the clause is written once, before the first tag. -/
theorem suffixTags_eq {tags : List Tag} (h : tags ≠ []) : suffixTags tags = "|#" ++ suffixClause tags := by
  obtain ⟨t, ts, rfl⟩ := List.exists_cons_of_ne_nil h
  rw [← furtherTags_eq, suffixTags]
  simp only [String.append_assoc]

theorem infixClause_append (separator : Char) (a b : List Tag) :
    infixClause separator (a ++ b) = infixClause separator a ++ infixClause separator b := by
  rw [infixClause, List.map_append, String.join_append, infixClause, infixClause]

theorem suffixClause_append {a b : List Tag} (ha : a ≠ []) (hb : b ≠ []) :
    suffixClause (a ++ b) = suffixClause a ++ "," ++ suffixClause b := by
  rw [suffixClause, List.map_append, String.intercalate_append_of_ne_nil (by simpa using ha) (by simpa using hb),
    suffixClause, suffixClause]

/-- The second of two lists starts with the mark, or with a comma if there are tags before it. -/
theorem suffixTags_append (a : List Tag) {b : List Tag} (hb : b ≠ []) :
    suffixTags (a ++ b) = suffixTags a ++ (if a = [] then "|#" else ",") ++ suffixClause b := by
  by_cases ha : a = []
  · rw [ha, List.nil_append, suffixTags_eq hb, suffixTags, if_pos rfl, String.empty_append]
  · rw [suffixTags_eq (by simp [ha]), suffixClause_append ha hb, suffixTags_eq ha, if_neg ha]
    simp only [String.append_assoc]

/-! ## Whole packets -/

/-- What a packet without tags has behind its name: colon, value, type and rate. -/
def measured (kind : Kind) (value : Value) (rate : Binary32) : String :=
  ":" ++ kind.token value ++ typeClause kind ++ rateClause rate

def TagFormat.nameTags (tags : List Tag) (format : TagFormat) : String :=
  match format.separator? with
  | some separator => infixClause separator tags
  | none => ""

def TagFormat.endTags (tags : List Tag) (format : TagFormat) : String :=
  match format.separator? with
  | some _ => ""
  | none => suffixTags tags

theorem encode_of_accepted {kind : Kind} {value : Value} (h : kind.fault? value = none) (name : String)
    (rate : Binary32) (tags : List Tag) (format : TagFormat) : encode name kind value rate tags format =
      .ok (name ++ format.nameTags tags ++ measured kind value rate ++ format.endTags tags) := by
  rw [encode, h]
  cases format <;>
    simp [Observation.packet, Observation.nameTags, Observation.endTags, scopedName, measured, TagFormat.nameTags,
      TagFormat.endTags, TagFormat.separator?, infixTags_eq, String.append_assoc]

/-- Where the tags of a packet stand, if `rest` is what it has behind its name without tags. -/
structure TagsInserted (name : String) (kind : Kind) (value : Value) (rate : Binary32) (rest : String) : Prop where
  /-- Without tags all dialects write the same. -/
  untagged : ∀ format, encode name kind value rate [] format = .ok (name ++ rest)
  behindName : ∀ {format separator}, format.separator? = some separator → ∀ tags,
    encode name kind value rate tags format = .ok (name ++ infixClause separator tags ++ rest)
  atEnd : ∀ tags, tags ≠ [] →
    encode name kind value rate tags .suffixOctothorpe = .ok (name ++ rest ++ "|#" ++ suffixClause tags)
  /-- Further tags go between those that are there and the rest. -/
  behindName_append : ∀ {format separator}, format.separator? = some separator → ∀ a b, ∃ before,
    encode name kind value rate a format = .ok (before ++ rest) ∧
    encode name kind value rate (a ++ b) format = .ok (before ++ infixClause separator b ++ rest)
  /-- At the end of a packet they go behind all that is there. -/
  atEnd_append : ∀ a b, b ≠ [] → ∃ packet, encode name kind value rate a .suffixOctothorpe = .ok packet ∧
    encode name kind value rate (a ++ b) .suffixOctothorpe =
      .ok (packet ++ (if a = [] then "|#" else ",") ++ suffixClause b)

/-- **Tags are inserted and leave the rest alone.** For a kind and a value that go together and any rate there is one
text, starting with a colon, that every packet has behind its name and the tags of an infix dialect, whatever the name
and the tags. The tags stand where their dialect puts them, in order and as they are, and further tags only add their
own clause. -/
theorem tags_inserted {kind : Kind} {value : Value} (h : kind.fault? value = none) (rate : Binary32) :
    ∃ rest : String, rest.toList.head? = some ':' ∧ ∀ name, TagsInserted name kind value rate rest := by
  refine ⟨measured kind value rate, ?_, fun name => ?_⟩
  · simp [measured]
  have hencode := encode_of_accepted h name rate
  have hname : ∀ {format : TagFormat} {separator}, format.separator? = some separator → ∀ tags,
      encode name kind value rate tags format =
        .ok (name ++ infixClause separator tags ++ measured kind value rate) := by
    intro format separator hseparator tags
    simp only [hencode, TagFormat.nameTags, TagFormat.endTags, hseparator, String.append_empty]
  have hend : ∀ tags, encode name kind value rate tags .suffixOctothorpe =
      .ok (name ++ measured kind value rate ++ suffixTags tags) := by
    intro tags
    simp only [hencode, TagFormat.nameTags, TagFormat.endTags, TagFormat.separator?, String.append_empty]
  constructor
  case untagged =>
    intro format
    cases format with
    | suffixOctothorpe => rw [hend, suffixTags, String.append_empty]
    | infixComma | infixSemicolon => rw [hname rfl, infixClause, List.map_nil, String.join_nil, String.append_empty]
  case behindName => exact hname
  case atEnd =>
    intro tags htags
    rw [hend, suffixTags_eq htags, ← String.append_assoc]
  case behindName_append =>
    intro format separator hseparator a b
    refine ⟨name ++ infixClause separator a, hname hseparator a, ?_⟩
    rw [hname hseparator, infixClause_append, ← String.append_assoc]
  case atEnd_append =>
    intro a b hb
    refine ⟨name ++ measured kind value rate ++ suffixTags a, hend a, ?_⟩
    rw [hend, suffixTags_append a hb, ← String.append_assoc, ← String.append_assoc]

/-- Tags that repeat, that are empty, and that hold the delimiters of every dialect. -/
theorem tags_inserted_delimiters :
    Kind.fault? .counter (.int 5) = none ∧ ∃ rest : String, rest.toList.head? = some ':' ∧
      encode "a:b" .counter (.int 5) .one [] .infixSemicolon = .ok ("a:b" ++ rest) ∧
      encode "a:b" .counter (.int 5) .one [⟨"k|", ",;"⟩, ⟨"", ""⟩, ⟨"k|", ",;"⟩] .infixSemicolon =
        .ok ("a:b;k|=,;;=;k|=,;" ++ rest) ∧
      encode "a:b" .counter (.int 5) .one [⟨"k|", ",;"⟩, ⟨"", ""⟩, ⟨"k|", ",;"⟩] .suffixOctothorpe =
        .ok ("a:b" ++ rest ++ "|#k|:,;,:,k|:,;") := by
  have haccepted : Kind.fault? .counter (.int 5) = none := rfl
  obtain ⟨rest, hcolon, hinserted⟩ := tags_inserted haccepted .one
  have h := hinserted "a:b"
  refine ⟨haccepted, rest, hcolon, h.untagged _, ?_, ?_⟩
  · rw [h.behindName rfl]
    rfl
  · rw [h.atEnd _ (by simp), String.append_assoc]
    rfl

end MetricWire
