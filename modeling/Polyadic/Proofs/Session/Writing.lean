import Polyadic.Proofs.Session.Outcome

/-!
# Writing lines

What a sink makes of the lines of a pass. A sink that has refused something is full (`writeAll_refused`),
a full sink stays full and takes no further line (`IsFull.writeAll`), texts that are taken stand in the sink
(`writeAll_taken`), and a sink without limit takes every text (`writeAll_unlimited`). `Wrote` says that between
two states of a session only the sink and the count of lines have changed, as by one line, and `Refused` why a
line may fail.
-/

namespace Polyadic.Session

namespace Sink

/-- A sink that takes no further byte. -/
def IsFull (sink : Sink) : Prop :=
  ∃ capacity, sink.capacity = some capacity ∧ capacity ≤ sink.content.size

lemma write_refused {sink sink' : Sink} {text : String} (h : sink.write text = (false, sink')) :
    sink'.IsFull := by
  obtain ⟨content, _ | capacity, flushFails⟩ := sink
  · cases h
  · simp only [write, Prod.mk.injEq, decide_eq_false_iff_not] at h
    obtain ⟨hroom, rfl⟩ := h
    refine ⟨capacity, rfl, ?_⟩
    simp only [ByteArray.size_append, ByteArray.size_extract]
    omega

lemma writeAll_refused {sink sink' : Sink} {texts : List String}
    (h : sink.writeAll texts = (false, sink')) : sink'.IsFull := by
  induction texts generalizing sink with
  | nil => cases h
  | cons text texts ih =>
    rw [writeAll] at h
    split at h
    · exact ih h
    · rename_i refused hw
      cases h
      exact write_refused hw

/-- A full sink takes nothing but empty texts, and is full afterwards. -/
lemma IsFull.write {sink sink' : Sink} {text : String} {taken : Bool} (full : sink.IsFull)
    (h : sink.write text = (taken, sink')) : sink'.IsFull ∧ (taken = true → text = "") := by
  obtain ⟨capacity, hc, hsize⟩ := full
  obtain ⟨content, _, flushFails⟩ := sink
  cases hc
  have hsize : capacity ≤ content.size := hsize
  simp only [Sink.write, Prod.mk.injEq] at h
  obtain ⟨rfl, rfl⟩ := h
  refine ⟨⟨capacity, rfl, ?_⟩, fun fits => ?_⟩
  · simp only [ByteArray.size_append]
    omega
  · have hbytes : text.toUTF8.size = 0 := by
      have := of_decide_eq_true fits
      omega
    rw [String.toUTF8_eq_toByteArray, String.size_toByteArray] at hbytes
    exact String.utf8ByteSize_eq_zero_iff.mp hbytes

/-- A full sink stays full, and of several texts it takes all only if they are all empty. -/
lemma IsFull.writeAll {sink sink' : Sink} {texts : List String} {taken : Bool} (full : sink.IsFull)
    (h : sink.writeAll texts = (taken, sink')) :
    sink'.IsFull ∧ (taken = true → ∀ text ∈ texts, text = "") := by
  induction texts generalizing sink with
  | nil =>
    cases h
    exact ⟨full, nofun⟩
  | cons text texts ih =>
    rw [Sink.writeAll] at h
    split at h
    · rename_i next hw
      obtain ⟨full', empty⟩ := full.write hw
      obtain ⟨full'', rest⟩ := ih full' h
      refine ⟨full'', fun taken => ?_⟩
      rintro t (_ | ⟨_, ht⟩)
      · exact empty rfl
      · exact rest taken t ht
    · rename_i next hw
      cases h
      exact ⟨(full.write hw).1, nofun⟩

lemma IsFull.refuses_line {sink sink' : Sink} {indent : Indent} {depth : Nat} {text : String}
    {taken : Bool} (full : sink.IsFull)
    (h : sink.writeAll (Writer.linePieces indent depth text) = (taken, sink')) : taken = false := by
  cases taken with
  | false => rfl
  | true =>
    -- Every line ends in a line feed, which is not empty.
    have empty := (full.writeAll h).2 rfl "\n" (by simp [Writer.linePieces])
    exact absurd empty (by decide)

lemma extract_whole {bytes : ByteArray} {room : Nat} (h : bytes.size ≤ room) :
    bytes.extract 0 room = bytes := by
  apply ByteArray.ext
  rw [ByteArray.data_extract, Array.extract_eq_of_size_le_stop h]
  exact Array.extract_size

lemma write_taken {sink sink' : Sink} {text : String} (h : sink.write text = (true, sink')) :
    sink'.content = sink.content ++ text.toUTF8 := by
  obtain ⟨content, _ | capacity, flushFails⟩ := sink
  · cases h
    rfl
  · obtain ⟨fits, rfl⟩ := Prod.mk.inj h
    have room := of_decide_eq_true fits
    show content ++ text.toUTF8.extract 0 (capacity - content.size) = content ++ text.toUTF8
    rw [extract_whole room]

/-- Texts that are all taken stand in the sink one behind the other. -/
lemma writeAll_taken {sink sink' : Sink} {texts : List String} (h : sink.writeAll texts = (true, sink')) :
    sink'.content = sink.content ++ (String.join texts).toUTF8 := by
  induction texts generalizing sink with
  | nil =>
    cases h
    exact ByteArray.append_empty.symm
  | cons text texts ih =>
    rw [writeAll] at h
    split at h
    · rename_i next first
      rw [ih h, write_taken first, String.join_cons, String.toUTF8_eq_toByteArray, String.toUTF8_eq_toByteArray,
        String.toUTF8_eq_toByteArray, String.toByteArray_append, ByteArray.append_assoc]
    · cases h

/-- A sink without limit takes every text and stays without limit. -/
lemma writeAll_unlimited {sink : Sink} (unlimited : sink.capacity = none) (texts : List String) :
    sink.writeAll texts =
      (true, { sink with content := sink.content ++ (String.join texts).toUTF8 }) := by
  obtain ⟨content, _, flushFails⟩ := sink
  cases unlimited
  induction texts generalizing content with
  | nil => simp [writeAll]
  | cons text texts ih =>
    simp only [writeAll, write, ih, String.join_cons, String.toUTF8_eq_toByteArray,
      String.toByteArray_append, ByteArray.append_assoc]

end Sink

/-- The session is writing to a full sink. -/
def IsFull (s : Session) : Prop :=
  ∃ sink, s.writer.sink = some sink ∧ sink.IsFull

/-- The session is writing to a sink that is not full. -/
structure HasRoom (s : Session) : Prop where
  active : s.isActive = true
  not_full : ¬ s.IsFull

lemma IsFull.active {s : Session} (h : s.IsFull) : s.isActive = true := by
  obtain ⟨sink, hs, _⟩ := h
  simp [isActive, hs]

/-- Between two states no scope was opened or left and no pass begun or ended. -/
structure Steady (s s' : Session) : Prop where
  scopes : s'.scopes = s.scopes
  active : s'.isActive = s.isActive
  full : s.IsFull → s'.IsFull

lemma Steady.refl (s : Session) : Steady s s :=
  ⟨rfl, rfl, id⟩

lemma Steady.trans {s s' s'' : Session} (h : Steady s s') (h' : Steady s' s'') : Steady s s'' :=
  ⟨h'.scopes.trans h.scopes, h'.active.trans h.active, h'.full ∘ h.full⟩

lemma Steady.hasRoom {s s' : Session} (h : Steady s s') (room : s'.HasRoom) : s.HasRoom :=
  ⟨h.active ▸ room.active, room.not_full ∘ h.full⟩

/-- Between two states lines were written, or parts of a line, and nothing else was done. -/
structure Wrote (s s' : Session) : Prop extends Steady s s' where
  regions : s'.regions = s.regions
  depth : s'.writer.depth = s.writer.depth

lemma Wrote.refl (s : Session) : Wrote s s :=
  ⟨.refl s, rfl, rfl⟩

lemma Wrote.trans {s s' s'' : Session} (h : Wrote s s') (h' : Wrote s' s'') : Wrote s s'' :=
  ⟨h.toSteady.trans h'.toSteady, h'.regions.trans h.regions, h'.depth.trans h.depth⟩

/-- Why a line is not written: the sink has refused it, or there is none. -/
def Refused (e : Error) (s : Session) : Prop :=
  (e = .write ∧ s.IsFull) ∨ (e = .noSink ∧ s.isActive = false)

namespace Action

/-- A line is written whole, and then the sink had room before, or it is refused. -/
lemma writeLine_yields (s : Session) (text : String) :
    Yields (ofWriter (Writer.writeLine text)) s (fun _ s' => Wrote s s' ∧ s.HasRoom)
      (fun e s' => Wrote s s' ∧ Refused e s') := by
  obtain ⟨braces, ⟨indent, _ | sink, depth, lines⟩, regions, scopes⟩ := s
  · exact ⟨.refl _, .inr ⟨rfl, rfl⟩⟩
  · unfold Yields
    simp only [ofWriter, Writer.writeLine]
    rcases hw : sink.writeAll (Writer.linePieces indent depth text) with ⟨taken, sink'⟩
    have keeps : ∀ lines', Wrote ⟨braces, ⟨indent, some sink, depth, lines⟩, regions, scopes⟩
        ⟨braces, ⟨indent, some sink', depth, lines'⟩, regions, scopes⟩ := by
      refine fun lines' => ⟨⟨rfl, rfl, ?_⟩, rfl, rfl⟩
      rintro ⟨_, ⟨⟩, full⟩
      exact ⟨sink', rfl, (full.writeAll hw).1⟩
    cases taken with
    | true =>
      refine ⟨keeps _, rfl, ?_⟩
      rintro ⟨_, ⟨⟩, full⟩
      exact absurd (full.refuses_line hw) (by decide)
    | false => exact ⟨keeps _, .inl ⟨rfl, sink', rfl, Sink.writeAll_refused hw⟩⟩

lemma writeLines_yields (s : Session) (texts : List String) :
    Yields (writeLines texts) s (fun _ s' => Wrote s s' ∧ (texts ≠ [] → s.HasRoom))
      (fun e s' => Wrote s s' ∧ Refused e s') := by
  induction texts generalizing s with
  | nil => exact ⟨.refl s, fun h => absurd rfl h⟩
  | cons text texts ih =>
    refine .bind (writeLine_yields s text) ?_
    intro _ s' ⟨wrote, room⟩
    refine (ih s').mono ?_ ?_
    · intro _ s'' ⟨wrote', _⟩
      exact ⟨wrote.trans wrote', fun _ => room⟩
    · intro e s'' ⟨wrote', refused⟩
      exact ⟨wrote.trans wrote', refused⟩

end Action

end Polyadic.Session
