import MetricWire.Packet
import MetricWire.Proofs.Decimal.Positional

/-!
Reading a packet back.

`Reading.ofPacket` takes a packet apart knowing its dialect and nothing else. It cuts at delimiters only: the
name ends at the first colon, the value and the type at the next bars, the rate at the bar of the tags. Packets
are written without escapes, so this works where no text brings the delimiter that ends it; `Readable` says
for each text which characters these are, and `ofPacket_encode` proves that they are all that matters. Other
delimiters may stand anywhere: bars in tags, equals signs in tag values, colons in the tag values at the end of
a packet or in the members of sets. No delimiter is among the characters that the text of a number can hold, so
a number never ends a clause too early.
-/

namespace MetricWire

/-! ## The texts of numbers -/

/-- The characters of number texts: digits, point, sign, and the letters of the names that are no numbers. -/
def IsNumeral (c : Char) : Prop := c.isDigit = true ∨ c ∈ ['.', '-', '+', 'N', 'a', 'i', 'n', 'f']

instance (c : Char) : Decidable (IsNumeral c) := inferInstanceAs (Decidable (_ ∨ _))

namespace IsNumeral

theorem ofDigit {c : Char} (h : c.isDigit = true) : IsNumeral c := Or.inl h

theorem of_all {s : List Char} (h : (s.all fun c => decide (IsNumeral c)) = true) : ∀ c ∈ s, IsNumeral c :=
  fun c hc => of_decide_eq_true (List.all_eq_true.mp h c hc)

theorem not_mem {s : List Char} (hs : ∀ c ∈ s, IsNumeral c) {d : Char} (hd : ¬ IsNumeral d) : d ∉ s :=
  fun h => hd (hs d h)

end IsNumeral

theorem Decimal.isNumeral_digits {n : Nat} : ∀ c ∈ Decimal.digits n, IsNumeral c :=
  fun _ hc => .ofDigit (Nat.isDigit_of_mem_toDigits (by decide) (by decide) hc)

theorem Decimal.isNumeral_positional (d : Decimal) : ∀ c ∈ d.positional, IsNumeral c := by
  intro c hc
  unfold positional at hc
  split at hc
  · exact isNumeral_digits c hc
  · rcases List.mem_append.mp hc with hw | hf
    · exact isNumeral_digits c hw
    · rcases List.mem_cons.mp hf with rfl | hp
      · decide
      · rw [List.leftpad] at hp
        rcases List.mem_append.mp hp with hz | hd
        · rw [(List.mem_replicate.mp hz).2]; decide
        · exact isNumeral_digits c hd

theorem Format.isNumeral_sign (fmt : Format) (negative : Bool) : ∀ c ∈ fmt.sign negative, IsNumeral c := by
  unfold sign
  split
  · exact IsNumeral.of_all (by decide)
  · split <;> exact IsNumeral.of_all (by decide)

theorem Binary.isNumeral_text {f : Layout} (x : Binary f) : ∀ c ∈ x.text.toList, IsNumeral c := by
  simp only [text, String.toList_ofList, signText, body]
  have hnan : ∀ c ∈ "NaN".toList, IsNumeral c := IsNumeral.of_all (by decide)
  have hinf : ∀ c ∈ "inf".toList, IsNumeral c := IsNumeral.of_all (by decide)
  intro c hc
  rcases List.mem_append.mp hc with hs | hb
  · split at hs
    · cases hs
    · exact Format.isNumeral_sign _ _ c hs
  · split at hb
    · exact hnan c hb
    · split at hb
      · exact hinf c hb
      · exact Decimal.isNumeral_positional _ c hb

theorem isNumeral_toString (n : Int) : ∀ c ∈ (toString n).toList, IsNumeral c := by
  rw [Int.toString_eq_repr, Int.repr_eq_if]
  intro c hc
  split at hc
  · exact Decimal.isNumeral_digits c (by simpa [Nat.repr, Decimal.digits] using hc)
  · rw [String.toList_append] at hc
    rcases List.mem_append.mp hc with hs | hd
    · rw [List.mem_singleton.mp hs]; decide
    · exact Decimal.isNumeral_digits c (by simpa [Nat.repr, Decimal.digits] using hd)

/-- A number is written as a numeral whatever the kind. -/
theorem Kind.isNumeral_token (k : Kind) {v : Value} (hv : ∀ s, v ≠ .text s) :
    ∀ c ∈ (k.token v).toList, IsNumeral c := by
  have hplain : ∀ c ∈ v.plain.toList, IsNumeral c := by
    cases v with
    | int n => exact isNumeral_toString n.toInt
    | float x => exact Binary.isNumeral_text x
    | text s => exact absurd rfl (hv s)
  intro c hc
  unfold token at hc
  split at hc
  · rw [String.toList_append] at hc
    rcases List.mem_append.mp hc with hs | hp
    · rw [List.mem_singleton.mp hs]; decide
    · exact hplain c hp
  · exact hplain c hc

/-! ## Readings -/

/-- What a packet tells. -/
structure Reading where
  name : String
  tags : List Tag
  token : String
  type : String
  rate : Option String
deriving DecidableEq, Repr

namespace Reading

/-- What stands before the first `stop`, and what stands behind it. -/
def cut (stop : Char) (s : List Char) : List Char × List Char :=
  (s.takeWhile (· != stop), (s.dropWhile (· != stop)).tail)

def readTag (mark : Char) (s : List Char) : Tag := ⟨.ofList (cut mark s).1, .ofList (cut mark s).2⟩

/-- The rate, if the text goes on with one, and what follows. -/
def readRate : List Char → Option String × List Char
  | '|' :: '@' :: s => (some (.ofList (s.takeWhile (· != '|'))), s.dropWhile (· != '|'))
  | s => (none, s)

def readEndTags : List Char → List Tag
  | '|' :: '#' :: s => (s.splitOn ',').map (readTag ':')
  | _ => []

def readNameTags (separator : Char) (s : List Char) : String × List Tag :=
  (.ofList ((s.splitOn separator).headD []), (s.splitOn separator).tail.map (readTag '='))

def readNames (head last : List Char) : TagFormat → String × List Tag
  | .suffixOctothorpe => (.ofList head, readEndTags last)
  | .infixComma => readNameTags ',' head
  | .infixSemicolon => readNameTags ';' head

def ofPacket (format : TagFormat) (packet : String) : Reading :=
  let (head, body) := cut ':' packet.toList
  let (token, body) := cut '|' body
  let (rate, last) := readRate (body.dropWhile (· != '|'))
  let (name, tags) := readNames head last format
  ⟨name, tags, .ofList token, .ofList (body.takeWhile (· != '|')), rate⟩

end Reading

/-- A tag whose texts do not end it early: at the end of a packet, keys have neither the colon nor the comma
    and values have no comma. -/
def Tag.FitsEnd (t : Tag) : Prop := ':' ∉ t.key.toList ∧ ',' ∉ t.key.toList ∧ ',' ∉ t.value.toList

/-- Behind the name, keys have none of equals sign, colon and separator, and values have neither colon nor
    separator. -/
def Tag.FitsName (separator : Char) (t : Tag) : Prop :=
  '=' ∉ t.key.toList ∧ ':' ∉ t.key.toList ∧ separator ∉ t.key.toList ∧
    ':' ∉ t.value.toList ∧ separator ∉ t.value.toList

/-- Name and tags that can be told apart in a dialect. -/
def Readable (name : String) (tags : List Tag) : TagFormat → Prop
  | .suffixOctothorpe => ':' ∉ name.toList ∧ ∀ t ∈ tags, t.FitsEnd
  | .infixComma => ':' ∉ name.toList ∧ ',' ∉ name.toList ∧ ∀ t ∈ tags, t.FitsName ','
  | .infixSemicolon => ':' ∉ name.toList ∧ ';' ∉ name.toList ∧ ∀ t ∈ tags, t.FitsName ';'

namespace Reading

/-! ## Cutting at delimiters -/

theorem takeWhile_stop {stop : Char} {s rest : List Char} (h : stop ∉ s)
    (hr : ∀ c, rest.head? = some c → c = stop) :
    (s ++ rest).takeWhile (· != stop) = s ∧ (s ++ rest).dropWhile (· != stop) = rest := by
  have hs : ∀ c ∈ s, (c != stop) = true := by
    intro c hc
    simp only [bne_iff_ne, ne_eq]
    rintro rfl
    exact h hc
  exact Span.append hs fun c hc => by simp [hr c hc]

theorem cut_append {stop : Char} {s rest : List Char} (h : stop ∉ s) :
    cut stop (s ++ stop :: rest) = (s, rest) := by
  have hstop : ∀ c, (stop :: rest).head? = some c → c = stop := by simp [eq_comm]
  obtain ⟨ht, hd⟩ := takeWhile_stop h hstop
  rw [cut, ht, hd]
  rfl

theorem splitOn_pieces {separator : Char} {first : List Char} {pieces : List (List Char)}
    (h : separator ∉ first) (hp : ∀ p ∈ pieces, separator ∉ p) :
    (first ++ pieces.flatMap (separator :: ·)).splitOn separator = first :: pieces := by
  induction pieces generalizing first with
  | nil => rw [List.flatMap_nil, List.append_nil, List.splitOn_eq_singleton h]
  | cons p pieces ih =>
    have hrest : ∀ q ∈ pieces, separator ∉ q := fun q hq => hp q (List.mem_cons_of_mem p hq)
    calc (first ++ (p :: pieces).flatMap (separator :: ·)).splitOn separator
        = (first ++ separator :: (p ++ pieces.flatMap (separator :: ·))).splitOn separator := by
          rw [List.flatMap_cons, List.cons_append]
      _ = first :: (p ++ pieces.flatMap (separator :: ·)).splitOn separator :=
          List.splitOn_append_cons_self_of_not_mem h _
      _ = first :: p :: pieces := by rw [ih (hp p List.mem_cons_self) hrest]

/-! ## Tags -/

def written (mark : Char) (t : Tag) : List Char := t.key.toList ++ mark :: t.value.toList

theorem readTag_written {mark : Char} {t : Tag} (h : mark ∉ t.key.toList) :
    readTag mark (written mark t) = t := by
  rw [readTag, written, cut_append h, String.ofList_toList, String.ofList_toList]

theorem map_readTag {mark : Char} {tags : List Tag} (h : ∀ t ∈ tags, mark ∉ t.key.toList) :
    (tags.map (written mark)).map (readTag mark) = tags := by
  induction tags with
  | nil => rfl
  | cons t ts ih =>
    have hrest : ∀ u ∈ ts, mark ∉ u.key.toList := fun u hu => h u (List.mem_cons_of_mem t hu)
    rw [List.map_cons, List.map_cons, readTag_written (h t List.mem_cons_self), ih hrest]

theorem toList_infixTags (separator : Char) (tags : List Tag) :
    (infixTags separator tags).toList = (tags.map (written '=')).flatMap (separator :: ·) := by
  induction tags with
  | nil => rfl
  | cons t ts ih => simp [infixTags, written, ih]

theorem toList_furtherTags (tags : List Tag) :
    (furtherTags tags).toList = (tags.map (written ':')).flatMap (',' :: ·) := by
  induction tags with
  | nil => rfl
  | cons t ts ih => simp [furtherTags, written, ih]

theorem readNameTags_infixTags {separator : Char} {name : String} {tags : List Tag} (hs : separator ≠ '=')
    (hn : separator ∉ name.toList) (ht : ∀ t ∈ tags, t.FitsName separator) :
    readNameTags separator (name.toList ++ (infixTags separator tags).toList) = (name, tags) := by
  have hp : ∀ p ∈ tags.map (written '='), separator ∉ p := by
    intro p hp
    obtain ⟨t, hm, rfl⟩ := List.mem_map.mp hp
    obtain ⟨-, -, hk, -, hv⟩ := ht t hm
    simp [written, hs, hk, hv]
  rw [readNameTags, toList_infixTags, splitOn_pieces hn hp]
  simp only [List.headD_cons, List.tail_cons, String.ofList_toList]
  rw [map_readTag fun t hm => (ht t hm).1]

theorem readEndTags_suffixTags : ∀ {tags : List Tag}, (∀ t ∈ tags, t.FitsEnd) →
    readEndTags (suffixTags tags).toList = tags
  | [], _ => rfl
  | t :: ts, h => by
    have hpiece : ∀ u ∈ t :: ts, ',' ∉ written ':' u := by
      intro u hu
      obtain ⟨-, hk, hv⟩ := h u hu
      simp [written, hk, hv]
    have hpieces : ∀ p ∈ ts.map (written ':'), ',' ∉ p := by
      intro p hp
      obtain ⟨u, hu, rfl⟩ := List.mem_map.mp hp
      exact hpiece u (List.mem_cons_of_mem t hu)
    calc readEndTags (suffixTags (t :: ts)).toList
        = ((written ':' t ++ (ts.map (written ':')).flatMap (',' :: ·)).splitOn ',').map (readTag ':') := by
          simp [suffixTags, written, toList_furtherTags, readEndTags]
      _ = ((t :: ts).map (written ':')).map (readTag ':') := by
          rw [splitOn_pieces (hpiece t List.mem_cons_self) hpieces]
          rfl
      _ = t :: ts := map_readTag fun u hu => (h u hu).1

/-! ## Whole packets -/

/-- What may follow a rate: nothing, or tags. -/
def IsLast (s : List Char) : Prop := s = [] ∨ ∃ t, s = '|' :: '#' :: t

theorem IsLast.head {s : List Char} (h : IsLast s) : ∀ c, s.head? = some c → c = '|' := by
  rcases h with rfl | ⟨t, rfl⟩ <;> simp [eq_comm]

theorem isLast_endTags (o : Observation) (format : TagFormat) : IsLast (o.endTags format).toList := by
  cases format with
  | suffixOctothorpe =>
    cases h : o.tags with
    | nil => left; simp [Observation.endTags, suffixTags, h]
    | cons t ts => right; simp [Observation.endTags, suffixTags, h]
  | infixComma | infixSemicolon => left; rfl

theorem bar_notMem_of_isNumeral {s : List Char} (h : ∀ c ∈ s, IsNumeral c) : '|' ∉ s :=
  IsNumeral.not_mem h (by decide)

/-- A rate is found again, and its absence too. -/
theorem readRate_rateClause (rate : Binary32) {last : List Char} (h : IsLast last) :
    readRate ((rateClause rate).toList ++ last) = (if rate.equals .one then none else some rate.text, last) := by
  unfold rateClause
  split
  · -- no clause: the tags are not taken for one
    rcases h with rfl | ⟨t, rfl⟩ <;> rfl
  · obtain ⟨ht, hd⟩ := takeWhile_stop (bar_notMem_of_isNumeral (Binary.isNumeral_text rate)) h.head
    rw [String.toList_append]
    change (some (String.ofList ((rate.text.toList ++ last).takeWhile (· != '|'))),
      (rate.text.toList ++ last).dropWhile (· != '|')) = _
    rw [ht, hd, String.ofList_toList]

theorem head_rateClause (rate : Binary32) {last : List Char} (h : IsLast last) :
    ∀ c, ((rateClause rate).toList ++ last).head? = some c → c = '|' := by
  unfold rateClause
  split
  · exact h.head
  · simp [eq_comm]

theorem colon_notMem_head {o : Observation} {name : String} {format : TagFormat}
    (h : Readable name o.tags format) : ':' ∉ name.toList ++ (o.nameTags format).toList := by
  have hinfix : ∀ separator, ':' ≠ separator → (∀ t ∈ o.tags, t.FitsName separator) →
      ':' ∉ (infixTags separator o.tags).toList := by
    intro separator hs ht
    rw [toList_infixTags]
    simp only [List.mem_flatMap, List.mem_map, List.mem_cons, not_exists, not_and, not_or]
    rintro p ⟨t, hm, rfl⟩
    obtain ⟨-, hk, -, hv, -⟩ := ht t hm
    exact ⟨hs, by simp [written, hk, hv]⟩
  cases format with
  | suffixOctothorpe => simpa [Observation.nameTags] using h.1
  | infixComma => simpa [Observation.nameTags] using ⟨h.1, hinfix ',' (by decide) h.2.2⟩
  | infixSemicolon => simpa [Observation.nameTags] using ⟨h.1, hinfix ';' (by decide) h.2.2⟩

theorem readNames_packet {o : Observation} {name : String} {format : TagFormat}
    (h : Readable name o.tags format) :
    readNames (name.toList ++ (o.nameTags format).toList) (o.endTags format).toList format = (name, o.tags) := by
  cases format with
  | suffixOctothorpe => simp [readNames, Observation.nameTags, Observation.endTags, readEndTags_suffixTags h.2]
  | infixComma => exact readNameTags_infixTags (by decide) h.2.1 h.2.2
  | infixSemicolon => exact readNameTags_infixTags (by decide) h.2.1 h.2.2

theorem bar_notMem_token (k : Kind) {v : Value} (h : ∀ s, v = .text s → '|' ∉ s.toList) :
    '|' ∉ (k.token v).toList := by
  cases v with
  | text s => simp [Kind.token, Value.plain]; split <;> simp [h s rfl]
  | int n => exact bar_notMem_of_isNumeral (k.isNumeral_token fun s => by simp)
  | float x => exact bar_notMem_of_isNumeral (k.isNumeral_token fun s => by simp)

theorem bar_notMem_suffix {k : Kind} {type : String} (h : k.suffix? = some type) : '|' ∉ type.toList := by
  cases k <;> cases h <;> decide

theorem suffix?_of_ne_raw {k : Kind} (h : k ≠ .raw) : ∃ type, k.suffix? = some type := by
  cases k <;> first | exact ⟨_, rfl⟩ | exact absurd rfl h

end Reading

open Reading in
/-- **A packet reads back.** Where name and tags can be told apart and a text value has no bar, the reading of an
encoded packet holds the name, the tags in order, the value as it was written, the type, and the rate unless it
is one. -/
theorem ofPacket_encode {name packet : String} {kind : Kind} {value : Value} {rate : Binary32} {tags : List Tag}
    {format : TagFormat} (hk : kind ≠ .raw) (he : encode name kind value rate tags format = .ok packet)
    (hv : ∀ s, value = .text s → '|' ∉ s.toList) (hr : Readable name tags format) :
    ∃ type, kind.suffix? = some type ∧ Reading.ofPacket format packet =
      ⟨name, tags, kind.token value, type, if rate.equals .one then none else some rate.text⟩ := by
  obtain ⟨type, ht⟩ := suffix?_of_ne_raw hk
  refine ⟨type, ht, ?_⟩
  let o : Observation := ⟨"", name, kind, value, rate, tags⟩
  have hp : packet = o.packet format := by
    unfold encode at he
    split at he
    · cases he
    · exact (Except.ok.inj he).symm
  have hl : packet.toList = (name.toList ++ (o.nameTags format).toList) ++ ':' ::
      ((kind.token value).toList ++ '|' ::
        (type.toList ++ ((rateClause rate).toList ++ (o.endTags format).toList))) := by
    simp [hp, o, Observation.packet, scopedName, typeClause, ht]
  have hlast := isLast_endTags o format
  -- every cut of the reader falls where the encoder ended a clause
  obtain ⟨htype, hrest⟩ := takeWhile_stop (bar_notMem_suffix ht) (head_rateClause rate hlast)
  simp only [Reading.ofPacket, hl, cut_append (colon_notMem_head (o := o) hr),
    cut_append (bar_notMem_token kind hv), htype, hrest, readRate_rateClause rate hlast,
    readNames_packet (o := o) hr, String.ofList_toList]
  rfl

/-- Empty texts, and delimiters where no clause ends at them. -/
theorem ofPacket_encode_delimiters :
    Readable "" [⟨"a|b=", "c:d|#"⟩, ⟨"", ""⟩] .suffixOctothorpe ∧
    ∃ type, Kind.suffix? .set = some type ∧
      Reading.ofPacket .suffixOctothorpe ":x:@y|s|@0.5|#a|b=:c:d|#,:" =
        ⟨"", [⟨"a|b=", "c:d|#"⟩, ⟨"", ""⟩], Kind.token .set (.text "x:@y"), type,
          if (Binary.ofBits 0x3f000000 : Binary32).equals .one then none
          else some (Binary.ofBits 0x3f000000 : Binary32).text⟩ := by
  have hr : Readable "" [⟨"a|b=", "c:d|#"⟩, ⟨"", ""⟩] .suffixOctothorpe := by
    simp [Readable, Tag.FitsEnd]
  have he : encode "" .set (.text "x:@y") (Binary.ofBits 0x3f000000) [⟨"a|b=", "c:d|#"⟩, ⟨"", ""⟩]
      .suffixOctothorpe = .ok ":x:@y|s|@0.5|#a|b=:c:d|#,:" :=
    congrArg Except.ok (by decide +kernel)
  refine ⟨hr, ofPacket_encode (by decide) he ?_ hr⟩
  rintro s ⟨⟩
  decide

end MetricWire
