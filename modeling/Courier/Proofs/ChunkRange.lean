-- Chunks the network accepts against the size of the file: while offset and length sum below 2^64
-- every accepted chunk, and everything it posts, lies within the file; at the top offset the end wraps
-- round and a chunk far past the end is accepted.
import Courier.Proofs.FlowNotices

namespace Courier

namespace Network

variable {net net' : Network} {me : PublicKey} {id : TransferId} {offset : Nat} {data : ByteArray}

/-- What a chunk that goes through posts to a node: the chunk, when the node is the receiver,
made with the number it knows the sender by; then the end markers of the flow, a request of
length zero and an empty chunk at the end of the file, when the chunk completes it. -/
theorem posted_sendChunk {f : Flow} (h : net.sendChunk me id offset data = .ok net')
    (hf : net.flowOf me id = .ok f) (k : PublicKey) :
    ∃ ends, posted net net' k = (if k = f.receiver then
        (net.peerAt f.receiver me).toList.map fun p => .chunkReceived ⟨p, id.file⟩ offset data
      else []) ++ ends ∧
      ∀ e ∈ ends, ∃ p, e = .chunkRequested ⟨p, id.file⟩ ⟨f.size, 0⟩ ∨
        e = .chunkReceived ⟨p, id.file⟩ f.size .empty := by
  obtain ⟨g, hg, -, -, -, hnet⟩ := sendChunk_ok h
  have hgf : g = f := by
    rw [hf] at hg
    cases hg
    rfl
  subst hgf
  have hadds := (adds_setFlow net id.file { g with
      outstanding := g.outstanding - 1
      delivered := max g.delivered ((offset + data.size) % Nat.pow 2 64) }).trans
    (adds_post _ g.receiver me fun p => .chunkReceived ⟨p, id.file⟩ offset data)
  dsimp only at hnet
  split at hnet
  · -- the chunk brings the last byte: the end markers follow it
    subst hnet
    refine ⟨endMarkers net id.file g k, ?_, fun e he => ?_⟩
    · rw [(hadds.trans (adds_complete (flow?_post_setFlow _ _ _ _ _ _))).posted,
        endMarkers_post_setFlow, List.nil_append, peerAt_setFlow]
      rfl
    · unfold endMarkers at he
      simp only [List.mem_append] at he
      rcases he with he | he <;> split at he <;> simp at he
      · obtain ⟨p, -, rfl⟩ := he
        exact ⟨p, .inl rfl⟩
      · obtain ⟨p, -, rfl⟩ := he
        exact ⟨p, .inr rfl⟩
  · subst hnet
    refine ⟨[], ?_, fun e he => by cases he⟩
    rw [hadds.posted, List.nil_append, List.append_nil, peerAt_setFlow]

/-- The chunks a call that goes through posts are its own chunk and, when it completes the flow,
the empty chunk at the end of the file. -/
theorem chunkReceived_of_sendChunk {f : Flow} (h : net.sendChunk me id offset data = .ok net')
    (hf : net.flowOf me id = .ok f) {k : PublicKey} {i : TransferId} {o : Nat} {d : ByteArray}
    (hmem : Event.chunkReceived i o d ∈ posted net net' k) :
    (o = offset ∧ d = data) ∨ (o = f.size ∧ d.size = 0) := by
  obtain ⟨ends, hposted, hends⟩ := posted_sendChunk h hf k
  rw [hposted, List.mem_append] at hmem
  rcases hmem with hmem | hmem
  · split at hmem
    · simp only [List.mem_map, Option.mem_toList] at hmem
      obtain ⟨p, -, he⟩ := hmem
      cases he
      exact .inl ⟨rfl, rfl⟩
    · cases hmem
  · obtain ⟨p, he | he⟩ := hends _ hmem
    · cases he
    · cases he
      exact .inr ⟨rfl, ByteArray.size_empty⟩

/-- A chunk that goes through reaches the receiver of the flow, made with the number the receiver
knows the sender by. -/
theorem chunk_posted_of_sendChunk {f : Flow} {p : UInt32} (h : net.sendChunk me id offset data = .ok net')
    (hf : net.flowOf me id = .ok f) (hp : net.peerAt f.receiver me = some p) :
    Event.chunkReceived ⟨p, id.file⟩ offset data ∈ posted net net' f.receiver := by
  obtain ⟨ends, hposted, -⟩ := posted_sendChunk h hf f.receiver
  rw [hposted, if_pos rfl, hp]
  simp

/-- A chunk that the network accepts, with offset and length summing below 2^64, lies within the
file: the flow is live and `me` sends it, the chunk is not empty, and it ends at or before the end
of the file. So does every chunk the call posts to any node: the chunk itself, and the empty chunk
at the end of the file when it completes the flow. -/
theorem sent_chunks_lie_within_the_file (h : net.sendChunk me id offset data = .ok net')
    (hwrap : offset + data.size < Nat.pow 2 64) :
    ∃ f, net.flow? id.file = some f ∧ f.sender = me ∧ 0 < data.size ∧ offset + data.size ≤ f.size ∧
      ∀ k i o d, Event.chunkReceived i o d ∈ posted net net' k → o + d.size ≤ f.size := by
  obtain ⟨f, hf, hsend, hpos, hstop, -⟩ := sendChunk_ok h
  -- below 2^64 the end the check compares is the end itself
  rw [Nat.mod_eq_of_lt hwrap] at hstop
  refine ⟨f, flow?_of_flowOf hf, hsend, hpos, hstop, fun k i o d hmem => ?_⟩
  rcases chunkReceived_of_sendChunk h hf hmem with ⟨rfl, rfl⟩ | ⟨rfl, hd⟩
  · exact hstop
  · omega

/-- Two friends; the first offers a file of two bytes and sends its first byte. The chunk is
accepted and everything it posts lies within the file. -/
theorem first_byte_chunk_lies_within_the_file :
    let alice := freshKey ({} : Network)
    let bob := freshKey ({ made := 1 } : Network)
    let net := run {} [.fresh "alice", .fresh "bob", .befriend alice bob, .offerFile alice 0 "f.bin" 2]
    ∃ net', net.sendChunk alice ⟨0, 0⟩ 0 ⟨#[0xaa]⟩ = .ok net' ∧ 0 + 1 < Nat.pow 2 64 ∧
      ∃ f, net.flow? 0 = some f ∧ 1 ≤ f.size ∧
        ∀ k i o d, Event.chunkReceived i o d ∈ posted net net' k → o + d.size ≤ f.size := by
  intro alice bob net
  have hok : (net.sendChunk alice ⟨0, 0⟩ 0 ⟨#[0xaa]⟩).isOk = true := by decide +kernel
  cases h : net.sendChunk alice ⟨0, 0⟩ 0 ⟨#[0xaa]⟩ with
  | error e =>
    rw [h] at hok
    cases hok
  | ok net' =>
    obtain ⟨f, hf, -, -, hend, hposted⟩ := sent_chunks_lie_within_the_file h (by decide)
    exact ⟨net', rfl, by decide, f, hf, hend, hposted⟩

/-- The same file, but a one-byte chunk at offset 2^64 - 1: its end wraps round to 0, which
passes the check, so the chunk is accepted and the receiver gets a chunk that starts far past the
end of the two-byte file. -/
theorem chunk_at_the_top_offset_wraps_into_range :
    let alice := freshKey ({} : Network)
    let bob := freshKey ({ made := 1 } : Network)
    let net := run {} [.fresh "alice", .fresh "bob", .befriend alice bob, .offerFile alice 0 "f.bin" 2]
    ∃ net' f, net.sendChunk alice ⟨0, 0⟩ (Nat.pow 2 64 - 1) ⟨#[0xaa]⟩ = .ok net' ∧
      net.flow? 0 = some f ∧ f.size < (Nat.pow 2 64 - 1) + (ByteArray.mk #[0xaa]).size ∧
      Event.chunkReceived ⟨0, 0⟩ (Nat.pow 2 64 - 1) ⟨#[0xaa]⟩ ∈ posted net net' bob := by
  intro alice bob net
  have hok : (net.sendChunk alice ⟨0, 0⟩ (Nat.pow 2 64 - 1) ⟨#[0xaa]⟩).isOk = true := by decide +kernel
  cases h : net.sendChunk alice ⟨0, 0⟩ (Nat.pow 2 64 - 1) ⟨#[0xaa]⟩ with
  | error e =>
    rw [h] at hok
    cases hok
  | ok net' =>
    obtain ⟨f, hf, -⟩ := sendChunk_ok h
    have hflow : net.flow? 0 = some f := flow?_of_flowOf hf
    -- the flow is the two-byte file that bob receives, and bob knows alice as friend 0
    have hsize : (net.flow? 0).map Flow.size = some 2 := by decide +kernel
    have hrecv : (net.flow? 0).map Flow.receiver = some bob := by decide +kernel
    have hpeer : net.peerAt bob alice = some 0 := by decide +kernel
    rw [hflow, Option.map_some, Option.some.injEq] at hsize hrecv
    refine ⟨net', f, rfl, hflow, by rw [hsize]; decide, ?_⟩
    have hposted := chunk_posted_of_sendChunk h hf (by rw [hrecv]; exact hpeer)
    rwa [hrecv] at hposted

end Network

end Courier
