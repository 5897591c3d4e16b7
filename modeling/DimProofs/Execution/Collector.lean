/-
`NativeOutputCollector`: two output streams of a job share one budget of bytes. What the collector holds is compared with
everything that arrived: the bytes of both streams in their order of arrival, each with its stream.
-/
import Mathlib

namespace Dim.Execution

/-- `createHash("sha256")` over bytes, in hexadecimal. -/
class Sha256 where
  hex : List UInt8 → String

abbrev Bytes := List UInt8

inductive Stream where
  | stdout
  | stderr
deriving DecidableEq

/-- `Channel`; `hash` is what the hash was updated with. -/
structure Channel where
  chunks : List Bytes
  hash : Bytes
  bytes : Nat
  truncated : Bool

/-- `channel()`. -/
def channel : Channel := { chunks := [], hash := [], bytes := 0, truncated := false }

structure OutputEvidence where
  (bytes sha256 : String)
  truncated : Bool

structure NativeBoundedOutput where
  (stdout stderr : Bytes)
  (stdoutEvidence stderrEvidence : OutputEvidence)

def evidence [Sha256] (value : Channel) : OutputEvidence :=
  { bytes := toString value.bytes, sha256 := "sha256:" ++ Sha256.hex value.hash, truncated := value.truncated }

/-- `aborts` counts the calls of `abort`. -/
structure NativeOutputCollector where
  limit : Nat
  (stdout stderr : Channel)
  (total aborts : Nat)

namespace NativeOutputCollector

def new (limit : Nat) : NativeOutputCollector := { limit, stdout := channel, stderr := channel, total := 0, aborts := 0 }

def channelOf (collector : NativeOutputCollector) : Stream → Channel
  | .stdout => collector.stdout
  | .stderr => collector.stderr

def withChannel (collector : NativeOutputCollector) (stream : Stream) (value : Channel) : NativeOutputCollector :=
  match stream with
  | .stdout => { collector with stdout := value }
  | .stderr => { collector with stderr := value }

/-- `exceeded`. -/
def exceeded (collector : NativeOutputCollector) : Bool := collector.stdout.truncated || collector.stderr.truncated

/-- The statements that keep what is accepted of a chunk. -/
def accept (collector : NativeOutputCollector) (stream : Stream) (accepted : Bytes) : NativeOutputCollector :=
  if 0 < accepted.length then
    let target := collector.channelOf stream
    { collector.withChannel stream { target with
        chunks := target.chunks ++ [accepted], hash := target.hash ++ accepted,
          bytes := target.bytes + accepted.length } with
      total := collector.total + accepted.length }
  else collector

/-- The statements that follow when a chunk is not accepted whole. -/
def truncate (collector : NativeOutputCollector) (stream : Stream) : NativeOutputCollector :=
  { collector.withChannel stream { collector.channelOf stream with truncated := true } with aborts := collector.aborts + 1 }

/-- `write` of a stream's `Writable`. -/
def write (collector : NativeOutputCollector) (stream : Stream) (bytes : Bytes) : NativeOutputCollector :=
  let remaining := collector.limit - collector.total
  let accepted := bytes.take remaining
  let collector := collector.accept stream accepted
  if accepted.length ≠ bytes.length then collector.truncate stream else collector

/-- The chunks of both streams in their order of arrival. -/
def writes (collector : NativeOutputCollector) (arrivals : List (Stream × Bytes)) : NativeOutputCollector :=
  arrivals.foldl (fun collector chunk => collector.write chunk.1 chunk.2) collector

def result [Sha256] (collector : NativeOutputCollector) : NativeBoundedOutput :=
  { stdout := collector.stdout.chunks.flatten, stderr := collector.stderr.chunks.flatten,
    stdoutEvidence := evidence collector.stdout, stderrEvidence := evidence collector.stderr }

end NativeOutputCollector

def NativeBoundedOutput.bytesOf (output : NativeBoundedOutput) : Stream → Bytes
  | .stdout => output.stdout
  | .stderr => output.stderr

def NativeBoundedOutput.evidenceOf (output : NativeBoundedOutput) : Stream → OutputEvidence
  | .stdout => output.stdoutEvidence
  | .stderr => output.stderrEvidence

/-! ## Arrivals -/

/-- The bytes of a chunk with their stream. -/
def tagged (stream : Stream) (bytes : Bytes) : List (Stream × UInt8) := bytes.map (stream, ·)

/-- Every byte that arrived, in the order of arrival. -/
def arrived (arrivals : List (Stream × Bytes)) : List (Stream × UInt8) :=
  arrivals.flatMap fun chunk => tagged chunk.1 chunk.2

/-- The bytes of one stream. -/
def split (stream : Stream) (bytes : List (Stream × UInt8)) : Bytes := (bytes.filter (·.1 = stream)).map Prod.snd

@[simp] theorem split_append (stream : Stream) (a b : List (Stream × UInt8)) :
    split stream (a ++ b) = split stream a ++ split stream b := by
  simp [split]

theorem split_tagged (stream other : Stream) (bytes : Bytes) :
    split stream (tagged other bytes) = if other = stream then bytes else [] := by
  by_cases h : other = stream
  · simp [split, tagged, List.filter_map, Function.comp_def, h]
  · simp [split, tagged, List.filter_map, Function.comp_def, h]

@[simp] theorem length_tagged (stream : Stream) (bytes : Bytes) :
    (tagged stream bytes).length = bytes.length := by simp [tagged]

theorem length_split (bytes : List (Stream × UInt8)) :
    (split .stdout bytes).length + (split .stderr bytes).length = bytes.length := by
  induction bytes with
  | nil => rfl
  | cons b bytes ih =>
    obtain ⟨stream, b⟩ := b
    cases stream <;> simp [split] at ih ⊢ <;> omega

namespace NativeOutputCollector

/-! ## What the collector holds -/

/-- A channel holds the bytes of its stream and was told whether one of them was dropped. -/
structure ChannelHolds (stream : Stream) (value : Channel) (kept dropped : List (Stream × UInt8)) : Prop where
  chunks : value.chunks.flatten = split stream kept
  hash : value.hash = split stream kept
  bytes : value.bytes = (split stream kept).length
  truncated : value.truncated = true ↔ ∃ b ∈ dropped, b.1 = stream

/-- Of what arrived the collector holds `kept`, up to its limit, and dropped the rest. -/
structure Holds (limit : Nat) (collector : NativeOutputCollector) (kept dropped : List (Stream × UInt8)) : Prop where
  bound : collector.limit = limit
  total : collector.total = kept.length
  within : kept.length ≤ limit
  full : dropped ≠ [] → kept.length = limit
  channels : ∀ stream, ChannelHolds stream (collector.channelOf stream) kept dropped

variable {limit : Nat} {collector : NativeOutputCollector} {kept dropped : List (Stream × UInt8)}

theorem channelOf_accept (stream other : Stream) (accepted : Bytes) : (collector.accept stream accepted).channelOf other =
    if stream = other ∧ accepted ≠ [] then
      { collector.channelOf stream with
        chunks := (collector.channelOf stream).chunks ++ [accepted], hash := (collector.channelOf stream).hash ++ accepted,
        bytes := (collector.channelOf stream).bytes + accepted.length }
    else collector.channelOf other := by
  cases accepted with
  | nil => simp [accept]
  | cons b accepted => cases stream <;> cases other <;> simp [accept, withChannel, channelOf]

theorem total_accept (stream : Stream) (accepted : Bytes) :
    (collector.accept stream accepted).total = collector.total + accepted.length := by
  cases accepted <;> simp [accept]

theorem limit_accept (stream : Stream) (accepted : Bytes) : (collector.accept stream accepted).limit = collector.limit := by
  cases accepted <;> cases stream <;> simp [accept, withChannel]

/-- What is accepted within the limit is held. -/
theorem Holds.accept (h : Holds limit collector kept []) (stream : Stream) {accepted : Bytes}
    (hfits : kept.length + accepted.length ≤ limit) :
    Holds limit (collector.accept stream accepted) (kept ++ tagged stream accepted) [] where
  bound := by rw [limit_accept, h.bound]
  total := by rw [total_accept, h.total, List.length_append, length_tagged]
  within := by rwa [List.length_append, length_tagged]
  full := fun hne => absurd rfl hne
  channels := fun other => by
    obtain ⟨hchunks, hhash, hbytes, htruncated⟩ := h.channels other
    rw [channelOf_accept]
    by_cases hother : stream = other
    · subst hother
      split
      · exact ⟨by simp [hchunks, split_tagged], by simp [hhash, split_tagged], by simp [hbytes, split_tagged], htruncated⟩
      · rename_i hnone
        have hnil : accepted = [] := by simpa using hnone
        subst hnil
        exact ⟨by simpa [tagged] using hchunks, by simpa [tagged] using hhash, by simpa [tagged] using hbytes, htruncated⟩
    · rw [if_neg (fun hand => hother hand.1)]
      exact ⟨by simp [hchunks, split_tagged, hother], by simp [hhash, split_tagged, hother],
        by simp [hbytes, split_tagged, hother], htruncated⟩

/-- What is dropped once the limit is reached is noticed by its stream. -/
theorem Holds.truncate (h : Holds limit collector kept dropped) (stream : Stream) {rest : Bytes} (hrest : rest ≠ [])
    (hfull : kept.length = limit) : Holds limit (collector.truncate stream) kept (dropped ++ tagged stream rest) where
  bound := by
    rw [← h.bound]
    cases stream <;> rfl
  total := by
    rw [← h.total]
    cases stream <;> rfl
  within := h.within
  full := fun _ => hfull
  channels := fun other => by
    obtain ⟨hchunks, hhash, hbytes, htruncated⟩ := h.channels other
    have hchannel : (collector.truncate stream).channelOf other =
        if stream = other then { collector.channelOf stream with truncated := true } else collector.channelOf other := by
      cases stream <;> cases other <;> rfl
    rw [hchannel]
    by_cases hother : stream = other
    · subst hother
      rw [if_pos rfl]
      obtain ⟨b, rest, rfl⟩ := List.exists_cons_of_ne_nil hrest
      refine ⟨hchunks, hhash, hbytes, iff_of_true rfl ⟨(stream, b), ?_, rfl⟩⟩
      simp [tagged]
    · rw [if_neg hother]
      refine ⟨hchunks, hhash, hbytes, htruncated.trans ?_⟩
      simp only [List.mem_append, tagged, List.mem_map]
      constructor
      · rintro ⟨b, hb, hstream⟩
        exact ⟨b, .inl hb, hstream⟩
      · rintro ⟨b, hb | ⟨_, _, rfl⟩, hstream⟩
        · exact ⟨b, hb, hstream⟩
        · exact absurd hstream hother

/-- A chunk is kept up to the limit, and its rest is dropped. -/
theorem Holds.write (h : Holds limit collector kept dropped) (stream : Stream) (bytes : Bytes) :
    Holds limit (collector.write stream bytes) (kept ++ tagged stream (bytes.take (limit - kept.length)))
      (dropped ++ tagged stream (bytes.drop (limit - kept.length))) := by
  have hwithin := h.within
  rw [NativeOutputCollector.write, h.bound, h.total]
  by_cases hfull : kept.length = limit
  · -- nothing is accepted, and what comes is dropped
    have hnone : limit - kept.length = 0 := by omega
    have haccept : collector.accept stream [] = collector := by simp [NativeOutputCollector.accept]
    rw [hnone]
    by_cases hbytes : bytes = []
    · subst hbytes
      simpa [tagged, haccept] using h
    · have hlength : (bytes.take 0).length ≠ bytes.length := fun heq => hbytes (List.length_eq_zero_iff.mp heq.symm)
      rw [if_pos hlength, List.take_zero, List.drop_zero, haccept]
      simpa [tagged] using h.truncate stream hbytes hfull
  · have hdropped : dropped = [] := by
      by_contra hne
      exact hfull (h.full hne)
    subst hdropped
    have hfit : kept.length + (bytes.take (limit - kept.length)).length ≤ limit := by
      rw [List.length_take]
      omega
    have haccepted := h.accept stream hfit
    by_cases hfits : bytes.length ≤ limit - kept.length
    · rw [List.take_of_length_le hfits] at haccepted ⊢
      rw [if_neg (not_not_intro rfl), List.drop_of_length_le hfits]
      exact haccepted
    · have hlength : (bytes.take (limit - kept.length)).length = limit - kept.length := by rw [List.length_take]; omega
      have hrest : bytes.drop (limit - kept.length) ≠ [] := by
        rw [ne_eq, List.drop_eq_nil_iff]
        exact hfits
      rw [if_pos (by omega)]
      exact haccepted.truncate stream hrest (by rw [List.length_append, length_tagged]; omega)

theorem holds_new (limit : Nat) : Holds limit (new limit) [] [] where
  bound := rfl
  total := rfl
  within := Nat.zero_le _
  full := fun hne => absurd rfl hne
  channels := fun stream => by cases stream <;> exact ⟨rfl, rfl, rfl, by simp [new, channelOf, channel]⟩

/-- After any chunks the collector holds what fits and has dropped the rest, in the order of arrival. -/
theorem Holds.writes : ∀ (arrivals : List (Stream × Bytes)) {collector : NativeOutputCollector}
    {kept dropped : List (Stream × UInt8)}, Holds limit collector kept dropped →
      ∃ kept' dropped', Holds limit (collector.writes arrivals) kept' dropped' ∧
        kept' ++ dropped' = kept ++ dropped ++ arrived arrivals
  | [], _, kept, dropped, h => ⟨kept, dropped, h, by simp [arrived]⟩
  | (stream, bytes) :: arrivals, collector, kept, dropped, h => by
    obtain ⟨kept', dropped', hholds, heq⟩ := Holds.writes arrivals (h.write stream bytes)
    refine ⟨kept', dropped', hholds, ?_⟩
    have hchunk : kept ++ tagged stream (bytes.take (limit - kept.length)) ++
        (dropped ++ tagged stream (bytes.drop (limit - kept.length))) = kept ++ dropped ++ tagged stream bytes := by
      by_cases hdropped : dropped = []
      · subst hdropped
        simp [tagged, List.map_take, List.map_drop]
      · have hnone : limit - kept.length = 0 := by rw [h.full hdropped, Nat.sub_self]
        simp [hnone, tagged]
    rw [heq, hchunk]
    simp [arrived]

/-! ## The result -/

/-- The longest beginning of a sequence that fits in the limit. -/
def Longest (limit : Nat) (sequence kept : List (Stream × UInt8)) : Prop :=
  kept <+: sequence ∧ kept.length ≤ limit ∧ ∀ start, start <+: sequence → start.length ≤ limit → start <+: kept

variable [Sha256]

/-- What is kept of any interleaving of chunks is the longest beginning of it that fits in the limit, and the evidence
is that of
what is kept. -/
theorem result_exact (limit : Nat) (arrivals : List (Stream × Bytes)) :
    ∃ kept dropped, Longest limit (arrived arrivals) kept ∧ arrived arrivals = kept ++ dropped ∧
      let output := ((new limit).writes arrivals).result
      output.stdout.length + output.stderr.length ≤ limit ∧
        ∀ stream, output.bytesOf stream = split stream kept ∧
          ((output.evidenceOf stream).truncated = true ↔ ∃ b ∈ dropped, b.1 = stream) ∧
          (output.evidenceOf stream).bytes = toString (output.bytesOf stream).length ∧
          (output.evidenceOf stream).sha256 = "sha256:" ++ Sha256.hex (output.bytesOf stream) := by
  obtain ⟨kept, dropped, h, heq⟩ := (holds_new limit).writes arrivals
  simp only [List.nil_append] at heq
  have hbytes : ∀ stream, (((new limit).writes arrivals).result).bytesOf stream = split stream kept := by
    intro stream
    rw [← (h.channels stream).chunks]
    cases stream <;> rfl
  have hevidence : ∀ stream, (((new limit).writes arrivals).result).evidenceOf stream =
      evidence (((new limit).writes arrivals).channelOf stream) := fun stream => by cases stream <;> rfl
  refine ⟨kept, dropped, ⟨⟨dropped, heq⟩, h.within, ?_⟩, heq.symm, ?_, ?_⟩
  · intro start hstart hfits
    refine List.prefix_of_prefix_length_le hstart ⟨dropped, heq⟩ ?_
    by_cases hdropped : dropped = []
    · subst hdropped
      rw [List.append_nil] at heq
      rw [heq]
      exact hstart.length_le
    · rw [h.full hdropped]
      exact hfits
  · have hsum := length_split kept
    have hout := hbytes .stdout
    have herr := hbytes .stderr
    simp only [NativeBoundedOutput.bytesOf] at hout herr
    rw [hout, herr, hsum]
    exact h.within
  · intro stream
    obtain ⟨-, hhash, hcount, htruncated⟩ := h.channels stream
    rw [hevidence, hbytes]
    refine ⟨rfl, htruncated, ?_, ?_⟩
    · rw [evidence, hcount]
    · rw [evidence, hhash]

end NativeOutputCollector
end Dim.Execution
