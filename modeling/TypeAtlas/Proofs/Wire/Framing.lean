import TypeAtlas.Proofs.Json.Data
import TypeAtlas.Proofs.Json.Lines
import TypeAtlas.Proofs.Wire.Envelope
import TypeAtlas.Wire.Lines
/-!
# Framing

Envelopes are written one after the other, each as its line and a line feed. A line holds no line
feed of its own, so the stream is cut where it was put together, in whatever pieces its bytes arrive
(`LineStream.lines_eq`). All envelopes come back if the doubles in their data do, and only then
(`Envelope.framing`).
-/

namespace TypeAtlas

/-! ## The bytes of a text -/

namespace Text

/-- A text in UTF-8. -/
def bytes (text : String) : List UInt8 :=
  text.toUTF8.data.toList

theorem bytes_eq (text : String) : bytes text = text.toList.flatMap String.utf8EncodeChar := by
  rw [bytes, String.toUTF8_eq_toByteArray, ← String.utf8Encode_toList, List.utf8Encode,
    List.data_toByteArray, List.toList_toArray]

/-- Only control characters are written with the bytes of control characters. -/
theorem le_toNat_utf8EncodeChar {c : Char} (hc : 0x20 ≤ c.toNat) :
    ∀ byte ∈ String.utf8EncodeChar c, 0x20 ≤ byte.toNat := by
  rw [Char.toNat] at hc
  unfold String.utf8EncodeChar
  dsimp only
  split_ifs <;>
    simp only [List.forall_mem_cons, List.not_mem_nil, false_implies, implies_true, and_true,
      UInt8.toNat_ofNat']
  all_goals omega

/-- The text of a plain line has no byte of a line break. -/
theorem le_toNat_of_mem_bytes {text : String} (h : IsPlain text.toList) {byte : UInt8}
    (hbyte : byte ∈ bytes text) : 0x20 ≤ byte.toNat := by
  rw [bytes_eq] at hbyte
  obtain ⟨c, hc, hbyte⟩ := List.mem_flatMap.1 hbyte
  exact le_toNat_utf8EncodeChar (h c hc) byte hbyte

end Text

namespace LineStream

@[simp]
theorem decode?_bytes (text : String) : decode? (Text.bytes text) = some text := by
  rw [decode?, Text.bytes, Array.toArray_toList, String.fromUTF8?]
  exact dif_pos text.isValidUTF8

/-! ## Streams in pieces -/

theorem cut_lineFeed (bytes : List UInt8) :
    cut (lineFeed :: bytes) = ([] :: (cut bytes).1, (cut bytes).2) :=
  rfl

section Cons

variable {byte : UInt8} (hbyte : byte ≠ lineFeed) {bytes : List UInt8}

include hbyte

/-- A byte of an unfinished line. -/
theorem cut_cons_of_eq_nil (h : (cut bytes).1 = []) :
    cut (byte :: bytes) = ([], byte :: (cut bytes).2) := by
  simp only [cut, if_neg hbyte, h]

/-- A byte of a finished line. -/
theorem cut_cons_of_eq_cons {line : List UInt8} {lines : List (List UInt8)}
    (h : (cut bytes).1 = line :: lines) :
    cut (byte :: bytes) = ((byte :: line) :: lines, (cut bytes).2) := by
  simp only [cut, if_neg hbyte, h]

end Cons

/-- What is cut off first does not depend on what comes later. -/
theorem cut_append (a b : List UInt8) :
    cut (a ++ b) = ((cut a).1 ++ (cut ((cut a).2 ++ b)).1, (cut ((cut a).2 ++ b)).2) := by
  induction a with
  | nil => rfl
  | cons byte a ih =>
    have hlines : (cut (a ++ b)).1 = (cut a).1 ++ (cut ((cut a).2 ++ b)).1 := by rw [ih]
    have hrest : (cut (a ++ b)).2 = (cut ((cut a).2 ++ b)).2 := by rw [ih]
    rw [List.cons_append]
    by_cases hbyte : byte = lineFeed
    · rw [hbyte, cut_lineFeed, cut_lineFeed, hlines, hrest, List.cons_append]
    cases hfirst : (cut a).1 with
    | cons line lines =>
      rw [hfirst, List.cons_append] at hlines
      rw [cut_cons_of_eq_cons hbyte hlines, cut_cons_of_eq_cons hbyte hfirst, hrest,
        List.cons_append]
    | nil =>
      rw [hfirst, List.nil_append] at hlines
      rw [cut_cons_of_eq_nil hbyte hfirst, List.nil_append, List.cons_append]
      cases hsecond : (cut ((cut a).2 ++ b)).1 with
      | nil =>
        rw [cut_cons_of_eq_nil hbyte (hlines.trans hsecond), cut_cons_of_eq_nil hbyte hsecond,
          hrest]
      | cons line lines =>
        rw [cut_cons_of_eq_cons hbyte (hlines.trans hsecond), cut_cons_of_eq_cons hbyte hsecond,
          hrest]

theorem decodeAll_append (a b : List (List UInt8)) :
    decodeAll (a ++ b) =
      if (decodeAll a).2 then ((decodeAll a).1, true)
      else ((decodeAll a).1 ++ (decodeAll b).1, (decodeAll b).2) := by
  induction a with
  | nil => rfl
  | cons line a ih =>
    rw [List.cons_append, decodeAll, decodeAll]
    cases decode? line with
    | none => rfl
    | some text =>
      dsimp only
      rw [ih]
      split <;> rfl

/-- Bytes may arrive in two pieces. -/
theorem push_append (stream : LineStream) (a b : List UInt8) :
    stream.push (a ++ b) =
      ((stream.push a).1 ++ ((stream.push a).2.push b).1, ((stream.push a).2.push b).2) := by
  cases hended : stream.ended with
  | true => simp only [push, hended, if_true, List.nil_append]
  | false =>
    have hcut := cut_append (stream.rest ++ a) b
    have hdecode := decodeAll_append ((cut (stream.rest ++ a)).1.map dropReturn)
      ((cut ((cut (stream.rest ++ a)).2 ++ b)).1.map dropReturn)
    rw [← List.map_append] at hdecode
    rw [push, push, hended, if_neg Bool.false_ne_true, if_neg Bool.false_ne_true,
      ← List.append_assoc, hcut]
    dsimp only
    rw [hdecode]
    cases hbroken : (decodeAll ((cut (stream.rest ++ a)).1.map dropReturn)).2 with
    | true => simp only [if_true, push, List.append_nil]
    | false => simp only [Bool.false_eq_true, if_false, push]

/-- The pieces of a stream arrive one after the other. -/
def pushAll (stream : LineStream) : List (List UInt8) → List String × LineStream
  | [] => ([], stream)
  | piece :: pieces =>
    let (lines, stream) := stream.push piece
    let (others, stream) := pushAll stream pieces
    (lines ++ others, stream)

/-- The lines of a stream that arrives in pieces and then ends. -/
def lines (pieces : List (List UInt8)) : List String :=
  let (lines, stream) := pushAll {} pieces
  lines ++ stream.close.1

/-- It makes no difference in which pieces a stream arrives. -/
theorem pushAll_eq {stream : LineStream} (h : stream.push [] = ([], stream))
    (pieces : List (List UInt8)) : stream.pushAll pieces = stream.push pieces.flatten := by
  induction pieces generalizing stream with
  | nil => exact h.symm
  | cons piece pieces ih =>
    have hnone : (stream.push piece).2.push [] = ([], (stream.push piece).2) := by
      have hsplit := stream.push_append piece []
      rw [List.append_nil] at hsplit
      exact Prod.ext (List.self_eq_append_right.1 (congrArg Prod.fst hsplit))
        (congrArg Prod.snd hsplit).symm
    rw [List.flatten_cons, push_append, ← ih hnone]
    rfl

/-! ## Streams of lines -/

/-- A line as it is written. -/
def framed (text : String) : List UInt8 :=
  Text.bytes text ++ [lineFeed]

theorem cut_framed {line : List UInt8} (h : lineFeed ∉ line) (rest : List UInt8) :
    cut (line ++ lineFeed :: rest) = (line :: (cut rest).1, (cut rest).2) := by
  induction line with
  | nil => exact cut_lineFeed rest
  | cons byte line ih =>
    obtain ⟨hbyte, hline⟩ := not_or.1 (mt List.mem_cons.2 h)
    have hrest := ih hline
    rw [List.cons_append, cut_cons_of_eq_cons (Ne.symm hbyte) (congrArg Prod.fst hrest), hrest]

theorem dropReturn_of_notMem {line : List UInt8} (h : 13 ∉ line) : dropReturn line = line :=
  if_neg fun hlast => h (List.mem_of_getLast? hlast)

variable {texts : List String} (htexts : ∀ text ∈ texts, Text.IsPlain text.toList)

include htexts

theorem cut_flatMap_framed : cut (texts.flatMap framed) = (texts.map Text.bytes, []) := by
  induction texts with
  | nil => rfl
  | cons text texts ih =>
    obtain ⟨htext, htexts⟩ := List.forall_mem_cons.1 htexts
    have hfeed : lineFeed ∉ Text.bytes text :=
      fun hmem => absurd (Text.le_toNat_of_mem_bytes htext hmem) (by decide)
    rw [List.flatMap_cons, framed, List.append_assoc, List.singleton_append, cut_framed hfeed,
      ih htexts, List.map_cons]

theorem decodeAll_map_bytes :
    decodeAll ((texts.map Text.bytes).map dropReturn) = (texts, false) := by
  induction texts with
  | nil => rfl
  | cons text texts ih =>
    obtain ⟨htext, htexts⟩ := List.forall_mem_cons.1 htexts
    have hreturn : 13 ∉ Text.bytes text :=
      fun hmem => absurd (Text.le_toNat_of_mem_bytes htext hmem) (by decide)
    rw [List.map_cons, List.map_cons, dropReturn_of_notMem hreturn, decodeAll, decode?_bytes,
      ih htexts]

/-- Plain lines are found where they were written, in whatever pieces the stream arrives. -/
theorem lines_eq {pieces : List (List UInt8)} (hpieces : pieces.flatten = texts.flatMap framed) :
    lines pieces = texts := by
  have hpush : push {} pieces.flatten = (texts, {}) := by
    rw [push, if_neg Bool.false_ne_true, List.nil_append, hpieces, cut_flatMap_framed htexts]
    dsimp only
    rw [decodeAll_map_bytes htexts]
    rfl
  rw [lines, pushAll_eq rfl, hpush]
  exact List.append_nil texts

end LineStream

/-! ## Streams of envelopes -/

namespace Payload

/-- The data of a payload is data as programs have it. -/
def Proper : Payload → Prop
  | request data | response data => data.Proper
  | error _ => True

/-- The doubles in the data of a payload. -/
def doubles : Payload → List Double
  | request data | response data => data.doubles
  | error _ => []

/-- A payload arrives as it was sent if the doubles in it come back from their texts, and only
then. -/
theorem arrived?_eq_some_self_iff {payload : Payload} (h : payload.Proper) :
    payload.arrived? = some payload ↔ ∀ d ∈ payload.doubles, (Json.double d).ReadsBack := by
  have hdata {data : Json} (h : data.Proper) : (data.through .text).value? = some data ↔
      ∀ d ∈ data.doubles, (Json.double d).ReadsBack :=
    (h.value?_through_eq_some_self_iff .text).trans (Json.readsBack_iff.symm.trans h.readsBack_iff)
  cases payload with
  | request data =>
    rw [doubles, ← hdata h, arrived?, Option.map_eq_some_iff]
    refine ⟨?_, fun hread => ⟨data, hread, rfl⟩⟩
    rintro ⟨_, hread, heq⟩
    exact request.inj heq ▸ hread
  | response data =>
    rw [doubles, ← hdata h, arrived?, Option.map_eq_some_iff]
    refine ⟨?_, fun hread => ⟨data, hread, rfl⟩⟩
    rintro ⟨_, hread, heq⟩
    exact response.inj heq ▸ hread
  | error data => exact iff_of_true rfl fun d hd => absurd hd List.not_mem_nil

end Payload

namespace Envelope

/-- The line of an envelope is read as this envelope just when its payload arrives. -/
theorem ofLine?_line_eq_some_self_iff (e : Envelope) :
    ofLine? e.line = some e ↔ e.payload.arrived? = some e.payload := by
  rw [ofLine?_line, Option.map_eq_some_iff]
  refine ⟨?_, fun harrived => ⟨e.payload, harrived, rfl⟩⟩
  rintro ⟨payload, harrived, heq⟩
  have hpayload : payload = e.payload := congrArg Envelope.payload heq
  rwa [hpayload] at harrived

/-- **Framing.** Envelopes are written as lines, one after the other, and the stream arrives in any
pieces. Its lines are read as the envelopes that were sent, in their order and no others, if the
doubles in their data come back from their texts, and only then: numbers, keys, versions, errors
and all other data make no difference. -/
theorem framing (sent : List Envelope) (hproper : ∀ e ∈ sent, e.payload.Proper)
    (pieces : List (List UInt8))
    (hpieces : pieces.flatten = sent.flatMap fun e => LineStream.framed e.line) :
    (LineStream.lines pieces).map ofLine? = sent.map some ↔
      ∀ e ∈ sent, ∀ d ∈ e.payload.doubles, (Json.double d).ReadsBack := by
  have hplain : ∀ text ∈ sent.map line, Text.IsPlain text.toList :=
    List.forall_mem_map.2 fun e _ => e.toJson.isPlain_text
  rw [LineStream.lines_eq hplain (by rw [hpieces, List.flatMap_map]), List.map_map,
    List.map_inj_left]
  refine forall₂_congr fun e he => ?_
  rw [← Payload.arrived?_eq_some_self_iff (hproper e he)]
  exact e.ofLine?_line_eq_some_self_iff

/-- A request with a line break in its key, and the error that a peer without versions answers. -/
def exchange : List Envelope :=
  [.current 7 "first\nsecond" (.request (.obj [("half", .double ⟨0x3FE0000000000000⟩),
      ("nothing", .null)])),
    ⟨7, "first\nsecond", .error ⟨"no\r\n", some "\x00"⟩, none⟩]

theorem proper_exchange : ∀ e ∈ exchange, e.payload.Proper := by
  refine List.forall_mem_cons.2 ⟨?_, List.forall_mem_cons.2 ⟨trivial, List.forall_mem_nil _⟩⟩
  refine .obj (List.forall_mem_cons.2 ⟨.double (by decide), ?_⟩) (by decide)
  exact List.forall_mem_cons.2 ⟨.null, List.forall_mem_nil _⟩

/-- The exchange, byte by byte. -/
theorem framing_exchange :
    (LineStream.lines ((exchange.flatMap fun e => LineStream.framed e.line).map ([·]))).map
      ofLine? = exchange.map some := by
  refine (framing exchange proper_exchange _ ?_).2 ?_
  · rw [← List.flatMap_def, List.flatMap_singleton']
  · refine List.forall_mem_cons.2 ⟨?_, List.forall_mem_cons.2 ⟨?_, List.forall_mem_nil _⟩⟩
    · decide +kernel
    · exact fun d hd => absurd hd List.not_mem_nil

end Envelope

end TypeAtlas
