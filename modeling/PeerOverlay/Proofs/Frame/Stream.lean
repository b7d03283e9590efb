import PeerOverlay.Frame

/-!
# Frames in a stream

A stream comes in chunks, and a frame may begin in one chunk and end in another.
What is taken off a buffer does not depend on what comes behind it, so a stream
gives the same messages and the same first error however it is cut.
-/

namespace PeerOverlay.Frame

/-! ## The number of bytes in a header -/

theorem lengthOf_lt (a b c d : UInt8) : lengthOf a b c d < UInt32.size := by
  have first := a.toNat_lt
  have second := b.toNat_lt
  have third := c.toNat_lt
  have fourth := d.toNat_lt
  unfold lengthOf UInt32.size
  omega

/-- The four bytes of a number are the bytes that it was read from. -/
theorem lengthBytes_lengthOf (a b c d : UInt8) : lengthBytes (lengthOf a b c d) = [a, b, c, d] := by
  have first := a.toNat_lt
  have second := b.toNat_lt
  have third := c.toNat_lt
  have fourth := d.toNat_lt
  unfold lengthBytes lengthOf
  simp only [List.cons.injEq, and_true, Nat.shiftRight_eq_div_pow, ← UInt8.toNat_inj,
    UInt8.toNat_ofNat']
  omega

theorem exists_lengthBytes_eq {length : Nat} (below : length < UInt32.size) :
    ∃ a b c d, lengthBytes length = [a, b, c, d] ∧ lengthOf a b c d = length := by
  refine ⟨_, _, _, _, rfl, ?_⟩
  unfold UInt32.size at below
  unfold lengthOf
  simp only [UInt8.toNat_ofNat', Nat.shiftRight_eq_div_pow]
  omega

/-! ## What a buffer starts with -/

/-- A header that announces a number of bytes. -/
def header (length : Nat) : List UInt8 :=
  magic ++ lengthBytes length

theorem wrap_eq (body : List UInt8) : wrap body = header body.length ++ body := rfl

theorem length_wrap (body : List UInt8) : (wrap body).length = headerSize + body.length := by
  unfold wrap
  rw [List.length_append]
  rfl

/-- The format of a stream: what can be taken off its bytes, and what is left. -/
inductive Offers (buffer : List UInt8) :
    Except FrameError (Option Message) × List UInt8 → Prop where
  | noHeader (few : buffer.length < headerSize) : Offers buffer (.ok none, buffer)
  | noBody (length : Nat) (behind : List UInt8) (same : buffer = header length ++ behind)
      (fits : length ≤ maxBodySize) (few : behind.length < length) :
      Offers buffer (.ok none, buffer)
  | badMagic (enough : headerSize ≤ buffer.length) (wrong : buffer.take magic.length ≠ magic) :
      Offers buffer (.error .badMagic, buffer)
  | tooLarge (length : Nat) (behind : List UInt8) (same : buffer = header length ++ behind)
      (below : length < UInt32.size) (large : maxBodySize < length) :
      Offers buffer (.error .tooLarge, buffer)
  | readable (body rest : List UInt8) (message : Message) (same : buffer = wrap body ++ rest)
      (fits : body.length ≤ maxBodySize) (reads : Message.decode? body = some message) :
      Offers buffer (.ok (some message), rest)
  | garbled (body rest : List UInt8) (same : buffer = wrap body ++ rest)
      (fits : body.length ≤ maxBodySize) (reads : Message.decode? body = none) :
      Offers buffer (.error .unreadable, rest)

/-- Decoding a buffer whose header announces a number of bytes. -/
theorem decode_header {length : Nat} (below : length < UInt32.size) (behind : List UInt8) :
    decode (header length ++ behind) =
      if maxBodySize < length then
        (.error .tooLarge, header length ++ behind)
      else if (behind.take length).length < length then
        (.ok none, header length ++ behind)
      else
        match Message.decode? (behind.take length) with
        | some message => (.ok (some message), behind.drop length)
        | none => (.error .unreadable, behind.drop length) := by
  obtain ⟨a, b, c, d, bytes, number⟩ := exists_lengthBytes_eq below
  have start : header length ++ behind =
      0x45 :: 0x56 :: 0x4f :: 0x4e :: a :: b :: c :: d :: behind := by
    rw [header, bytes]
    rfl
  rw [start]
  simp only [decode, number, List.splitAt_eq]
  rfl

theorem decode_badMagic {buffer : List UInt8} (enough : headerSize ≤ buffer.length)
    (wrong : buffer.take magic.length ≠ magic) : decode buffer = (.error .badMagic, buffer) := by
  match buffer, enough, wrong with
  | _ :: _ :: _ :: _ :: _ :: _ :: _ :: _ :: _, _, wrong => exact if_pos wrong

theorem decode_of_length_lt {buffer : List UInt8} (few : buffer.length < headerSize) :
    decode buffer = (.ok none, buffer) := by
  unfold decode
  split
  · simp only [List.length_cons, headerSize] at few
    omega
  · rfl

theorem exists_header {buffer : List UInt8} (enough : headerSize ≤ buffer.length)
    (right : buffer.take magic.length = magic) :
    ∃ length behind, length < UInt32.size ∧ buffer = header length ++ behind := by
  match buffer, enough, right with
  | m₁ :: m₂ :: m₃ :: m₄ :: a :: b :: c :: d :: behind, _, right =>
      refine ⟨lengthOf a b c d, behind, lengthOf_lt a b c d, ?_⟩
      have front : [m₁, m₂, m₃, m₄] = magic := right
      rw [header, lengthBytes_lengthOf, ← front]
      rfl

theorem decode_wrap {body : List UInt8} (fits : body.length ≤ maxBodySize) (rest : List UInt8) :
    decode (wrap body ++ rest) =
      match Message.decode? body with
      | some message => (.ok (some message), rest)
      | none => (.error .unreadable, rest) := by
  have below : body.length < UInt32.size := Nat.lt_of_le_of_lt fits (by decide)
  rw [wrap_eq, List.append_assoc, decode_header below, if_neg (Nat.not_lt_of_le fits),
    List.take_left, List.drop_left, if_neg (Nat.lt_irrefl _)]

theorem Offers.decode_eq {buffer : List UInt8}
    {decoded : Except FrameError (Option Message) × List UInt8} (offers : Offers buffer decoded) :
    decode buffer = decoded := by
  cases offers with
  | noHeader few => exact decode_of_length_lt few
  | noBody length behind same fits few =>
      have below : length < UInt32.size := Nat.lt_of_le_of_lt fits (by decide)
      rw [same, decode_header below, if_neg (Nat.not_lt_of_le fits), List.length_take, if_pos]
      exact Nat.lt_of_le_of_lt (Nat.min_le_right _ _) few
  | badMagic enough wrong => exact decode_badMagic enough wrong
  | tooLarge length behind same below large => rw [same, decode_header below, if_pos large]
  | readable body rest message same fits reads => rw [same, decode_wrap fits, reads]
  | garbled body rest same fits reads => rw [same, decode_wrap fits, reads]

theorem offers_decode (buffer : List UInt8) : Offers buffer (decode buffer) := by
  suffices found : ∃ decoded, Offers buffer decoded by
    obtain ⟨decoded, offers⟩ := found
    rwa [offers.decode_eq]
  by_cases enough : headerSize ≤ buffer.length
  · by_cases right : buffer.take magic.length = magic
    · obtain ⟨length, behind, below, same⟩ := exists_header enough right
      by_cases large : maxBodySize < length
      · exact ⟨_, .tooLarge length behind same below large⟩
      · have fits : length ≤ maxBodySize := Nat.le_of_not_lt large
        by_cases few : behind.length < length
        · exact ⟨_, .noBody length behind same fits few⟩
        · have whole : (behind.take length).length = length := by
            rw [List.length_take]
            omega
          have framed : buffer = wrap (behind.take length) ++ behind.drop length := by
            rw [wrap_eq, whole, List.append_assoc, List.take_append_drop, same]
          rw [← whole] at fits
          cases reads : Message.decode? (behind.take length) with
          | some message => exact ⟨_, .readable _ _ message framed fits reads⟩
          | none => exact ⟨_, .garbled _ _ framed fits reads⟩
    · exact ⟨_, .badMagic enough right⟩
  · exact ⟨_, .noHeader (Nat.lt_of_not_le enough)⟩

/-- What is taken off a buffer is what the format offers there, and nothing else. -/
theorem decode_eq_iff (buffer : List UInt8)
    (decoded : Except FrameError (Option Message) × List UInt8) :
    decode buffer = decoded ↔ Offers buffer decoded :=
  ⟨fun same => same ▸ offers_decode buffer, Offers.decode_eq⟩

theorem decode_eq_message_iff (buffer : List UInt8) (message : Message) (rest : List UInt8) :
    decode buffer = (.ok (some message), rest) ↔
      ∃ body, buffer = wrap body ++ rest ∧ body.length ≤ maxBodySize ∧
        Message.decode? body = some message := by
  rw [decode_eq_iff]
  constructor
  · intro offers
    cases offers with
    | readable body _ _ same fits reads => exact ⟨body, same, fits, reads⟩
  · rintro ⟨body, same, fits, reads⟩
    exact .readable body rest message same fits reads

theorem decode_eq_unreadable_iff (buffer rest : List UInt8) :
    decode buffer = (.error .unreadable, rest) ↔
      ∃ body, buffer = wrap body ++ rest ∧ body.length ≤ maxBodySize ∧
        Message.decode? body = none := by
  rw [decode_eq_iff]
  constructor
  · intro offers
    cases offers with
    | garbled body _ same fits reads => exact ⟨body, same, fits, reads⟩
  · rintro ⟨body, same, fits, reads⟩
    exact .garbled body rest same fits reads

/-- As long as a frame is not complete, nothing is taken off. -/
theorem eq_of_decode_eq_none {buffer rest : List UInt8}
    (decoded : decode buffer = (.ok none, rest)) : rest = buffer := by
  have offers := (decode_eq_iff buffer _).1 decoded
  cases offers with
  | noHeader few => rfl
  | noBody length behind same fits few => rfl

/-- Only a frame whose bytes are no message is taken off although it has failed. -/
theorem eq_of_decode_eq_error {buffer rest : List UInt8} {error : FrameError}
    (decoded : decode buffer = (.error error, rest)) (other : error ≠ .unreadable) :
    rest = buffer := by
  have offers := (decode_eq_iff buffer _).1 decoded
  cases offers with
  | badMagic enough wrong => rfl
  | tooLarge length behind same below large => rfl
  | garbled body _ same fits reads => exact absurd rfl other

/-! ## What comes behind -/

theorem decode_append_of_message {front rest : List UInt8} {message : Message}
    (decoded : decode front = (.ok (some message), rest)) (back : List UInt8) :
    decode (front ++ back) = (.ok (some message), rest ++ back) := by
  obtain ⟨body, same, fits, reads⟩ := (decode_eq_message_iff front message rest).1 decoded
  rw [decode_eq_message_iff]
  exact ⟨body, by rw [same, List.append_assoc], fits, reads⟩

theorem decode_append_of_error {front rest : List UInt8} {error : FrameError}
    (decoded : decode front = (.error error, rest)) (back : List UInt8) :
    decode (front ++ back) = (.error error, rest ++ back) := by
  have offers := (decode_eq_iff front _).1 decoded
  rw [decode_eq_iff]
  cases offers with
  | badMagic enough wrong =>
      refine .badMagic (Nat.le_trans enough ?_) ?_
      · rw [List.length_append]
        exact Nat.le_add_right _ _
      · rwa [List.take_append_of_le_length (Nat.le_trans (by decide) enough)]
  | tooLarge length behind same below large =>
      exact .tooLarge length (behind ++ back) (by rw [same, List.append_assoc]) below large
  | garbled body _ same fits reads =>
      exact .garbled body (rest ++ back) (by rw [same, List.append_assoc]) fits reads

theorem length_lt_of_decode_eq_message {buffer rest : List UInt8} {message : Message}
    (decoded : decode buffer = (.ok (some message), rest)) : rest.length < buffer.length := by
  obtain ⟨body, same, _, _⟩ := (decode_eq_message_iff buffer message rest).1 decoded
  rw [same, List.length_append, length_wrap, headerSize]
  omega

/-! ## Whole buffers and streams in chunks -/

/-- What has come out of a stream: the messages up to the first error, the error,
and the bytes in the buffer. -/
structure Reading where
  messages : List Message
  error : Option FrameError
  buffer : List UInt8

def Reading.after (message : Message) (reading : Reading) : Reading :=
  { reading with messages := message :: reading.messages }

/-- Decode the messages in a buffer until a frame is not complete or there is an error. -/
def readAll (buffer : List UInt8) : Reading :=
  match decoded : decode buffer with
  | (.ok none, rest) => ⟨[], none, rest⟩
  | (.ok (some message), rest) =>
      have := length_lt_of_decode_eq_message decoded
      (readAll rest).after message
  | (.error error, rest) => ⟨[], some error, rest⟩
  termination_by buffer.length

/-- A chunk comes in behind the bytes in the buffer, and what is complete is taken
off.  Behind an error nothing is read any more. -/
def Reading.feed (reading : Reading) (chunk : List UInt8) : Reading :=
  match reading.error with
  | some _ => { reading with buffer := reading.buffer ++ chunk }
  | none =>
      let more := readAll (reading.buffer ++ chunk)
      { more with messages := reading.messages ++ more.messages }

/-- What comes out of a stream in chunks. -/
def readChunks (chunks : List (List UInt8)) : Reading :=
  chunks.foldl Reading.feed ⟨[], none, []⟩

theorem readAll_of_none {buffer rest : List UInt8} (decoded : decode buffer = (.ok none, rest)) :
    readAll buffer = ⟨[], none, rest⟩ := by
  rw [readAll]
  split <;> simp_all

theorem readAll_of_message {buffer rest : List UInt8} {message : Message}
    (decoded : decode buffer = (.ok (some message), rest)) :
    readAll buffer = (readAll rest).after message := by
  rw [readAll]
  split <;> simp_all

theorem readAll_of_error {buffer rest : List UInt8} {error : FrameError}
    (decoded : decode buffer = (.error error, rest)) :
    readAll buffer = ⟨[], some error, rest⟩ := by
  rw [readAll]
  split <;> simp_all

theorem Reading.after_feed (message : Message) (reading : Reading) (chunk : List UInt8) :
    (reading.feed chunk).after message = (reading.after message).feed chunk := by
  unfold Reading.feed Reading.after
  cases reading.error <;> rfl

/-- Reading goes on where it has stopped. -/
theorem readAll_append (front back : List UInt8) :
    readAll (front ++ back) = (readAll front).feed back := by
  induction size : front.length using Nat.strongRecOn generalizing front with
  | ind bytes hypothesis =>
      match decoded : decode front with
      | (.ok none, rest) =>
          rw [readAll_of_none decoded, eq_of_decode_eq_none decoded]
          rfl
      | (.ok (some message), rest) =>
          have shorter : rest.length < bytes := by
            rw [← size]
            exact length_lt_of_decode_eq_message decoded
          rw [readAll_of_message decoded,
            readAll_of_message (decode_append_of_message decoded back),
            hypothesis rest.length shorter rest rfl, Reading.after_feed]
      | (.error error, rest) =>
          rw [readAll_of_error decoded, readAll_of_error (decode_append_of_error decoded back)]
          rfl

theorem foldl_feed_readAll (front : List UInt8) (chunks : List (List UInt8)) :
    chunks.foldl Reading.feed (readAll front) = readAll (front ++ chunks.flatten) := by
  induction chunks generalizing front with
  | nil => rw [List.flatten_nil, List.append_nil, List.foldl_nil]
  | cons chunk others hypothesis =>
      rw [List.foldl_cons, ← readAll_append, hypothesis, List.flatten_cons, List.append_assoc]

/-- A stream in chunks gives the messages, the first error and the bytes left that
the whole stream gives.  A message or an unreadable body is taken off with exactly
its frame; whatever else is found leaves the buffer as it is. -/
theorem readChunks_eq_readAll :
    (∀ chunks, readChunks chunks = readAll chunks.flatten) ∧
      ∀ buffer rest,
        (∀ message, decode buffer = (.ok (some message), rest) ↔
          ∃ body, buffer = wrap body ++ rest ∧ body.length ≤ maxBodySize ∧
            Message.decode? body = some message) ∧
        (decode buffer = (.error .unreadable, rest) ↔
          ∃ body, buffer = wrap body ++ rest ∧ body.length ≤ maxBodySize ∧
            Message.decode? body = none) ∧
        (decode buffer = (.ok none, rest) → rest = buffer) ∧
        ∀ error, decode buffer = (.error error, rest) → error ≠ .unreadable →
          rest = buffer := by
  refine ⟨?_, ?_⟩
  · intro chunks
    have start : readAll [] = ⟨[], none, []⟩ := readAll_of_none rfl
    rw [readChunks, ← start, foldl_feed_readAll, List.nil_append]
  · intro buffer rest
    exact ⟨fun message => decode_eq_message_iff buffer message rest,
      decode_eq_unreadable_iff buffer rest, eq_of_decode_eq_none,
      fun _ => eq_of_decode_eq_error⟩

end PeerOverlay.Frame
