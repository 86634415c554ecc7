import Maiden.Common.HttpClient

/-!
# Is a body read as the text that was sent?

The client posts texts in UTF-8 and reads the answers byte by byte: `_.toChar` makes one
character of each byte, and of a byte from 128 on, which is negative in Java, one of the last
128 of the basic plane (`toChar_eq`). So an answer in UTF-8 is read as it was meant exactly if
it is in ASCII (`readsText_iff`). The sign is not what breaks it: in UTF-8 any other text has
more bytes than UTF-16 has units, and no conversion of single bytes can be right
(`Utf.map_utf8_iff`).
-/

namespace Maiden.Http

/-- The sign of a byte is carried into the upper half of the character. -/
theorem toChar_eq (b : UInt8) :
    toChar b = if b.toNat < 128 then b.toNat else 0xFF00 + b.toNat := by
  have hlt : b.toBitVec.toNat < 256 := b.toNat_lt
  show (b.toBitVec.signExtend 16).toNat = if b.toBitVec.toNat < 128 then _ else _
  rw [BitVec.toNat_signExtend, BitVec.msb_eq_decide, BitVec.toNat_setWidth]
  show _ = if _ then b.toBitVec.toNat else 0xFF00 + b.toBitVec.toNat
  by_cases hsmall : b.toBitVec.toNat < 128
  · rw [if_pos hsmall, if_neg (by simpa using hsmall)]
    omega
  · rw [if_neg hsmall, if_pos (by simpa using hsmall)]
    omega

theorem toChar_of_lt (b : UInt8) (h : b.toNat < 128) : toChar b = b.toNat := by
  rw [toChar_eq, if_pos h]

namespace HttpClient

section

variable {Uri : Type} {fromString : JString → Option Uri} (c : HttpClient fromString)
  (exchange : Request Uri → Exchange)

/-- The server has answered in time, with a success and the body. -/
structure Delivered (body : List UInt8) : Prop where
  inTime : (exchange c.request).millis ≤ c.timeout
  response : ∃ r, (exchange c.request).outcome = .response r ∧ r.isSuccessful = true ∧
    r.body = body

/-- The text is what the client returns, and what it parses. -/
structure ReadsText {JValue Fields : Type} (json : Json JValue Fields) (s : JString) : Prop where
  fetch : c.fetch exchange = .ok s
  fetchAsJson : c.fetchAsJson exchange json = c.asJson json s
  fetchAsMap : c.fetchAsMap exchange json = c.asMap json s

variable {c exchange}

/-- `fetchRaw` returns what is delivered, and nothing else. -/
theorem fetchRaw_eq_ok_iff {body : List UInt8} :
    c.fetchRaw exchange = .ok body ↔ c.Delivered exchange body := by
  constructor
  · intro h
    rw [fetchRaw] at h
    split at h
    · cases h
    · next htime =>
      split at h
      · next r hr =>
        split at h
        · next hok => exact ⟨Nat.le_of_not_lt htime, r, hr, hok, Except.ok.inj h⟩
        · split at h
          · cases h
          · cases h
      · cases h
      · cases h
  · rintro ⟨htime, r, hr, hok, rfl⟩
    rw [fetchRaw, if_neg (Nat.not_lt_of_le htime), hr]
    exact if_pos hok

/-- A delivered body is read byte by byte. -/
theorem Delivered.fetchAsString {body : List UInt8} (h : c.Delivered exchange body) :
    c.fetchAsString exchange = .ok (body.map toChar) := by
  rw [HttpClient.fetchAsString, fetchRaw_eq_ok_iff.mpr h]
  rfl

/-- What is returned is what is parsed. -/
theorem readsText_iff_fetch {JValue Fields : Type} {json : Json JValue Fields} {s : JString} :
    c.ReadsText exchange json s ↔ c.fetch exchange = .ok s := by
  refine ⟨ReadsText.fetch, fun h => ⟨h, ?_, ?_⟩⟩
  · show c.fetch exchange >>= c.asJson json = c.asJson json s
    rw [h]
    rfl
  · show c.fetch exchange >>= c.asMap json = c.asMap json s
    rw [h]
    rfl

/-- **Answers in UTF-8.** For every client, server and parser, and every text that has an
encoding: if the encoding is delivered, the client returns and parses the text if and only if
it is in ASCII. -/
theorem readsText_iff {JValue Fields : Type} (json : Json JValue Fields) {s : JString}
    {body : List UInt8} (hbody : Utf.encodeUtf8 s = some body)
    (hdelivered : c.Delivered exchange body) :
    c.ReadsText exchange json s ↔ ∀ a ∈ s, a < 128 := by
  obtain ⟨cs, rfl, rfl⟩ := Utf.encodeUtf8_eq_some_iff.mp hbody
  have hfetch : c.fetch exchange = .ok ((Utf.utf8 cs).map toChar) := hdelivered.fetchAsString
  rw [readsText_iff_fetch, hfetch, Utf.forall_utf16_lt_iff, ← Utf.map_utf8_iff toChar_of_lt]
  exact ⟨Except.ok.inj, congrArg Except.ok⟩

end

/-! ## A server that sends back what it is posted -/

/-- A single field `json` is posted in UTF-8: the text itself is the body, without name and
escapes. -/
theorem buildRequest_json {Uri : Type} {fromString : JString → Option Uri} {a : HttpArgs}
    {uri : Uri} {text : JString} {body : List UInt8} (hmethod : a.method = js ['P', 'O', 'S', 'T'])
    (hdata : a.data.entries = [⟨js ['j', 's', 'o', 'n'], [text]⟩])
    (huri : fromString a.url = some uri) (hbody : Utf.encodeUtf8 text = some body) :
    a.buildRequest fromString = .ok
      { method := .post, uri, headers := a.headers.entries.map fun e => (e.1, e.2), body } := by
  have hparams : a.params = .ok (js ['j', 's', 'o', 'n'] ++ jc '=' :: text) := by
    rw [HttpArgs.params, hdata]
    show Except.ok ([jc '&'].intercalate [_]) = _
    rw [List.intercalate_singleton]
  have htext : ∀ params, a.postText params = .ok text := by
    intro params
    rw [HttpArgs.postText, hdata]
    exact if_pos rfl
  have hbytes : HttpArgs.postBytes text = .ok body := by
    rw [HttpArgs.postBytes, hbody]
  have hgetUri : getUri fromString a.url = .ok uri := by
    rw [getUri, huri]
  rw [HttpArgs.buildRequest, hparams]
  show (a.postText _ >>= _) = _
  rw [htext]
  show (HttpArgs.postBytes text >>= _) = _
  rw [hbytes]
  show (if a.method = js ['P', 'O', 'S', 'T'] then _ else _) = _
  rw [if_pos hmethod, hgetUri]
  rfl

def echo (r : Request JString) : Exchange := ⟨5, .response ⟨200, r.body, []⟩⟩

/-- A client that posts a text as JSON. -/
def poster (text : JString) (body : List UInt8) (hbody : Utf.encodeUtf8 text = some body) :
    HttpClient (some : JString → Option JString) where
  url := js ['u']
  method := js ['P', 'O', 'S', 'T']
  data := AList.singleton (js ['j', 's', 'o', 'n']) [text]
  request := { method := .post, uri := js ['u'], body }
  built := buildRequest_json rfl rfl rfl hbody

theorem delivered_echo (text : JString) (body : List UInt8)
    (hbody : Utf.encodeUtf8 text = some body) : (poster text body hbody).Delivered echo body := by
  refine ⟨?_, _, rfl, rfl, rfl⟩
  show 5 ≤ 30000
  decide

/-- A parser that returns the text. -/
def plainText : Json JString JString := ⟨.ok, .ok⟩

/-- `{}` comes back as it was sent. -/
theorem readsText_braces :
    Utf.encodeUtf8 [123, 125] = some [123, 125] ∧
      (poster [123, 125] [123, 125] rfl).ReadsText echo plainText [123, 125] :=
  ⟨rfl, (readsText_iff plainText rfl (delivered_echo _ _ rfl)).mpr (by decide)⟩

/-- The letter `é` comes back as two others. -/
theorem accent_misread :
    Utf.encodeUtf8 (js ['é']) = some [0xC3, 0xA9] ∧
      (poster (js ['é']) [0xC3, 0xA9] rfl).fetch echo = .ok [0xFFC3, 0xFFA9] ∧
      ¬(poster (js ['é']) [0xC3, 0xA9] rfl).ReadsText echo plainText (js ['é']) := by
  have hfetch : (poster (js ['é']) [0xC3, 0xA9] rfl).fetch echo = .ok [0xFFC3, 0xFFA9] :=
    (delivered_echo _ _ rfl).fetchAsString
  refine ⟨rfl, hfetch, fun h => ?_⟩
  have hsame := Except.ok.inj (hfetch.symm.trans h.fetch)
  revert hsame
  decide

end HttpClient

end Maiden.Http
