import MetricWire.Server

/-!
What a server hands on.

The buffer is written from its front, and only as many bytes are read from it as were written, so nothing of an
earlier datagram is seen again. Of a datagram that is too long the first bytes are left. They are text just if the
cut is in front of a character, because no encoding of a character starts with the encoding of another one.

  1. `take_fill`, `accepted_eq` — each datagram is handed on, or not, by itself, whatever the buffer held before.
  2. `text?_eq_some_iff`, `utf8_prefix_iff` — the bytes of a text, and of a part of it from the front.
  3. `received_eq_some_iff` — where a text can be cut.
  4. `texts_handed_on` — all of it.
-/

namespace MetricWire.Server

def utf8 (s : String) : List UInt8 := s.toByteArray.data.toList

/-- What the consumer gets of a datagram. -/
def received (datagram : List UInt8) : Option String := text? (datagram.take bufferSize)

def Wait.datagram? : Wait → Option (List UInt8)
  | datagram bytes => some bytes
  | _ => none

/-- The datagrams that come before the server stops. -/
def arrived (waits : List Wait) : List (List UInt8) :=
  (waits.takeWhile (· ≠ .timeout true)).filterMap Wait.datagram?

/-! ## The buffer -/

/-- What is read from the buffer is what was written to it, cut to its size. -/
theorem take_fill (buffer datagram : List UInt8) :
    (fill buffer datagram).2.take (fill buffer datagram).1 = datagram.take bufferSize :=
  List.take_left' rfl

theorem accepted_eq (buffer : List UInt8) (waits : List Wait) :
    accepted buffer waits = (arrived waits).filterMap received := by
  induction waits generalizing buffer with
  | nil => rfl
  | cons wait later ih =>
    cases wait with
    | datagram bytes =>
      show (text? ((fill buffer bytes).2.take (fill buffer bytes).1)).toList ++
        accepted (fill buffer bytes).2 later = (arrived (.datagram bytes :: later)).filterMap received
      rw [take_fill, ih, ← received]
      cases h : received bytes <;> simp [arrived, Wait.datagram?, h]
    | timeout stopping =>
      cases stopping with
      | true => rfl
      | false => rw [accepted, ih]; rfl
    | failure => rw [accepted, ih]; rfl

theorem arrived_sent (datagrams : List (List UInt8)) :
    arrived (datagrams.map .datagram ++ [.timeout true]) = datagrams := by
  have hsent : ∀ wait ∈ datagrams.map Wait.datagram, decide (wait ≠ .timeout true) = true := by simp
  have hall : Wait.datagram? ∘ Wait.datagram = some := rfl
  have hend : [Wait.timeout true].takeWhile (· ≠ .timeout true) = [] := by decide
  rw [arrived, List.takeWhile_append_of_pos hsent, hend, List.append_nil, List.filterMap_map, hall, List.filterMap_some]

theorem run_eq (datagrams : List (List UInt8)) : run datagrams = datagrams.filterMap received := by
  rw [run, serve, accepted_eq, arrived_sent]

/-! ## Texts and their bytes -/

theorem length_utf8 (s : String) : (utf8 s).length = s.utf8ByteSize := rfl

theorem utf8_append (s t : String) : utf8 (s ++ t) = utf8 s ++ utf8 t := by
  simp [utf8, String.toByteArray_append]

/-- The bytes of a text are read as this text, and nothing else is. -/
theorem text?_eq_some_iff {bytes : List UInt8} {t : String} : text? bytes = some t ↔ utf8 t = bytes := by
  unfold text? String.fromUTF8?
  constructor
  · intro h
    split at h
    · rw [← Option.some.inj h]
      rfl
    · cases h
  · rintro rfl
    exact dif_pos t.isValidUTF8

/-- No character's bytes start with those of another one, so what the bytes start with the text starts with. -/
theorem utf8_prefix_iff {t s : String} : utf8 t <+: utf8 s ↔ ∃ rest, s = t ++ rest := by
  constructor
  · rintro ⟨bytes, hbytes⟩
    have harray : t.toList.utf8Encode ++ ⟨bytes.toArray⟩ = s.toList.utf8Encode := by
      rw [String.utf8Encode_toList, String.utf8Encode_toList]
      apply ByteArray.ext
      apply Array.ext'
      simpa [utf8] using hbytes
    obtain ⟨rest, hrest⟩ := List.isPrefix_of_utf8Encode_append_eq_utf8Encode _ harray
    refine ⟨.ofList rest, ?_⟩
    rw [← String.toList_inj, String.toList_append, String.toList_ofList, hrest]
  · rintro ⟨rest, rfl⟩
    rw [utf8_append]
    exact List.prefix_append ..

/-! ## Where a text can be cut -/

/-- Some characters from the front of the text have this many bytes. -/
def IsBoundary (s : String) (n : Nat) : Prop := ∃ front back, s = front ++ back ∧ front.utf8ByteSize = n

/-- In front of a byte a text can be cut just if the byte is the first one of a character. -/
theorem isBoundary_iff {s : String} {n : Nat} (h : n < s.utf8ByteSize) :
    IsBoundary s n ↔ ∃ b, (utf8 s)[n]? = some b ∧ b.IsUTF8FirstByte := by
  have hvalid : IsBoundary s n ↔ String.Pos.Raw.IsValid s ⟨n⟩ := by
    rw [String.Pos.Raw.isValid_iff_exists_append]
    constructor
    · rintro ⟨front, back, hs, rfl⟩
      exact ⟨front, back, hs, rfl⟩
    · rintro ⟨front, back, hs, hn⟩
      exact ⟨front, back, hs, (congrArg String.Pos.Raw.byteIdx hn).symm⟩
  have hbyte : (utf8 s)[n]? = some (s.getUTF8Byte ⟨n⟩ h) := by
    simp [utf8, String.getUTF8Byte, ByteArray.getElem_eq_getElem_data]
  rw [hvalid, String.Pos.Raw.isValid_iff_isUTF8FirstByte]
  constructor
  · rintro (hend | ⟨hlt, hfirst⟩)
    · exact absurd (congrArg String.Pos.Raw.byteIdx hend) (Nat.ne_of_lt h)
    · exact ⟨_, hbyte, hfirst⟩
  · rintro ⟨b, hb, hfirst⟩
    rw [hbyte] at hb
    exact .inr ⟨h, Option.some.inj hb ▸ hfirst⟩

theorem received_of_le {s : String} (h : s.utf8ByteSize ≤ bufferSize) : received (utf8 s) = some s := by
  rw [received, text?_eq_some_iff, List.take_of_length_le (by rwa [length_utf8])]

theorem received_eq_some_iff {s t : String} (h : bufferSize ≤ s.utf8ByteSize) :
    received (utf8 s) = some t ↔ t.utf8ByteSize = bufferSize ∧ ∃ back, s = t ++ back := by
  have hlength : ((utf8 s).take bufferSize).length = bufferSize := by
    rw [List.length_take, length_utf8, Nat.min_eq_left h]
  rw [received, text?_eq_some_iff, ← utf8_prefix_iff, List.prefix_iff_eq_take, length_utf8]
  constructor
  · intro heq
    have hsize : t.utf8ByteSize = bufferSize := by rw [← length_utf8, heq, hlength]
    exact ⟨hsize, by rw [hsize, heq]⟩
  · rintro ⟨hsize, heq⟩
    rw [heq, hsize]

/-- What becomes of a text that is sent as one datagram. -/
structure Delivery (s : String) : Prop where
  whole : s.utf8ByteSize ≤ 1024 → received (utf8 s) = some s
  /-- Of a longer text that can be cut there the consumer gets the part that fills the buffer. -/
  part : ∀ front back, s = front ++ back → front.utf8ByteSize = 1024 → received (utf8 s) = some front
  nothing : 1024 < s.utf8ByteSize → ¬ IsBoundary s 1024 → received (utf8 s) = none
  /-- Whether it can be cut there is told by the first byte that is lost. -/
  boundary : 1024 < s.utf8ByteSize → (IsBoundary s 1024 ↔ ∃ b, (utf8 s)[1024]? = some b ∧ b.IsUTF8FirstByte)

theorem delivery (s : String) : Delivery s where
  whole := received_of_le
  part := by
    rintro front back rfl hsize
    have hle : bufferSize ≤ (front ++ back).utf8ByteSize := by
      rw [String.utf8ByteSize_append, hsize]
      exact Nat.le_add_right ..
    exact (received_eq_some_iff hle).mpr ⟨hsize, back, rfl⟩
  nothing := by
    intro hlong hno
    rw [Option.eq_none_iff_forall_ne_some]
    intro t ht
    obtain ⟨hsize, back, hs⟩ := (received_eq_some_iff (Nat.le_of_lt hlong)).mp ht
    exact hno ⟨t, back, hs, hsize⟩
  boundary := isBoundary_iff

/-- **What was sent is handed on.** However its waits end, a server hands on, in order, the texts of the datagrams
that came before it stopped, each cut to the size of the buffer; those whose bytes are no text after the cut are left
out. A datagram has no part in what becomes of the others. So a text that fits is handed on as it is, and of a longer
one the part that fills the buffer, or nothing if a character lies across the cut. -/
theorem texts_handed_on :
    (∀ waits, serve waits = (arrived waits).filterMap received) ∧
    (∀ datagrams, run datagrams = datagrams.filterMap received) ∧
    (∀ datagram t, received datagram = some t ↔ utf8 t = datagram.take 1024) ∧
    (∀ before datagram after,
      run (before ++ datagram :: after) = run before ++ (received datagram).toList ++ run after) ∧
    ∀ s, Delivery s := by
  refine ⟨fun waits => accepted_eq _ waits, run_eq, fun datagram t => text?_eq_some_iff, ?_, delivery⟩
  intro before datagram after
  simp only [run_eq, List.filterMap_append, List.filterMap_cons, List.append_assoc]
  cases received datagram <;> rfl

/-- Two characters of two bytes each, of which the second one is cut off whole or cut in two. -/
theorem texts_handed_on_cut :
    let a (n : Nat) : String := .ofList (List.replicate n 'a')
    run [utf8 (a 1022 ++ "éé"), utf8 (a 1021 ++ "éé"), utf8 ""] = [a 1022 ++ "é", ""] := by
  intro a
  have hsize : ∀ n, (a n).utf8ByteSize = n := by
    intro n
    rw [← String.size_toByteArray, String.toByteArray_ofList]
    simp [List.utf8Encode, show 'a'.utf8Size = 1 from rfl]
  obtain ⟨-, hrun, -, -, hdelivery⟩ := texts_handed_on
  have hpart : received (utf8 (a 1022 ++ "éé")) = some (a 1022 ++ "é") := by
    refine (hdelivery _).part _ "é" ?_ ?_
    · rw [String.append_assoc, show "é" ++ "é" = "éé" from rfl]
    · rw [String.utf8ByteSize_append, hsize, show "é".utf8ByteSize = 2 from rfl]
  have hnothing : received (utf8 (a 1021 ++ "éé")) = none := by
    have hlong : 1024 < (a 1021 ++ "éé").utf8ByteSize := by
      rw [String.utf8ByteSize_append, hsize, show "éé".utf8ByteSize = 4 from rfl]
      decide
    have hbyte : (utf8 (a 1021 ++ "éé"))[1024]? = some 0xa9 := by
      rw [utf8_append, List.getElem?_append_right (by rw [length_utf8, hsize]; decide), length_utf8, hsize]
      decide +kernel
    refine (hdelivery _).nothing hlong ?_
    rw [(hdelivery _).boundary hlong, hbyte]
    rintro ⟨b, hb, hfirst⟩
    rw [← Option.some.inj hb] at hfirst
    revert hfirst
    decide
  have hempty : received (utf8 "") = some "" := (hdelivery "").whole (by decide)
  rw [hrun, List.filterMap_cons_some hpart, List.filterMap_cons_none hnothing, List.filterMap_cons_some hempty,
    List.filterMap_nil]

end MetricWire.Server
