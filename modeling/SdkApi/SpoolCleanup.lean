import SdkApi.SpoolFiles

/-!
# The temporary file of a failed spool

An error of the loop that reads the stream is followed by a cleanup, an error
of `finish` is not. The calls of a spool are numbered: the file is created by
call 0, and call 1 copies the memory into it, in the loop or after it.
-/

namespace SdkApi.SpoolCleanup
open SeenStates SpoolFiles

/-- The stream ends within `n` reads, and the file is filled or closed in vain after them. -/
def Leaks (host : Host) (S : Settings) (stream : Reader) (n : ℕ) : Prop :=
  ∃ k < n, EndsAt stream 0 k ∧ InVain host S (writes S stream (k+1))

lemma leaks_iff {host : Host} {S : Settings} {stream : Reader} {n k : ℕ} (hk : k < n)
    (h : EndsAt stream 0 k) : Leaks host S stream n ↔ InVain host S (writes S stream (k+1)) := by
  refine ⟨fun ⟨j, _, hj, hv⟩ => ?_, fun hv => ⟨k, hk, h, hv⟩⟩
  rcases Nat.lt_trichotomy j k with hl | rfl | hl
  · cases hj.1.symm.trans (h.2 j (Nat.zero_le j) hl)
  · exact hv
  · cases h.1.symm.trans (hj.2 k (Nat.zero_le k) hl)

section

variable {host : Host} (hn : ∀ i dir name, host.createTemp i dir = .ok name → name ≠ "")
  {S : Settings} {stream : Reader} {n : ℕ} {e : Stop} {sp : Spooler}
include hn

lemma cleanup_removes (h : Broken host S stream 0 n e sp) (hp : e ≠ .pending) :
    (cleanup e sp).file = none := by
  cases e with
  | pending => exact absurd rfl hp
  | failed msg =>
    simp only [cleanup]
    split_ifs with hu
    · exact h.tracked.resolve_right fun hc => hn _ _ _ hc hu
    · rfl

omit hn in
lemma not_leaks (h : Broken host S stream 0 n e sp) : ¬Leaks host S stream n := by
  rintro ⟨k, hk, he, hc, hv⟩
  rcases h.fault k (by omega) (Nat.zero_le k) he with hf | ⟨j, hj, hw⟩
  · exact hf hc
  · rcases hv with ⟨hz, -⟩ | ⟨ha, -⟩
    · omega
    · exact hw (ha j (by omega))

/-- A failed call leaves no file exactly if the file is not filled or closed in vain after the
last read. -/
theorem spool_not_leaked_iff (stream : Reader) (cfg : SpoolConfig) (n : ℕ) :
    (∀ msg, (spoolToFile host stream cfg n {}).result = .error (.failed msg) →
      (spoolToFile host stream cfg n {}).state.file = none) ↔
    ¬Leaks host (settings host cfg) stream n := by
  have hs : Keeps (Bounded (settings host cfg)) (Holding host (settings host cfg) 0 [])
      (spoolToFile host stream cfg n) (fun _ _ => ¬Leaks host (settings host cfg) stream n)
      fun e sp => (e ≠ .pending → sp.file = none) ↔ ¬Leaks host (settings host cfg) stream n := by
    apply keeps_bind (keeps_rescue (ingest_spec n 0))
    · refine fun _ => keeps_of_states fun s ⟨k, hk, he, hr⟩ => ?_
      rw [leaks_iff (by omega) he]
      refine keeps_weaken finish_spec (fun u hu => hu ▸ hr) (fun f u hu hv => ?_) fun e u hu => ?_
      · rcases hv.2 with ⟨-, hw⟩ | ⟨-, hc⟩
        · exact hw (hu.1.written 0 (by omega))
        · exact hc hu.2.2.2
      · rw [forall_prop_of_true hu.1]
        rcases hu.2.2 with ⟨hf, hc⟩ | ⟨hf, hv⟩
        · exact iff_of_true hf fun hv => hc hv.1
        · exact iff_of_false hf (not_not.mpr hv)
    · exact fun e u hu => hu.bounded.cleanup e
    · exact fun e u hu => iff_of_true (cleanup_removes hn hu) (not_leaks hu)
  have hz := holding_start host cfg
  cases hr : (spoolToFile host stream cfg n {}).result with
  | ok f => exact iff_of_true (fun _ h => by cases h) (hs.returns _ hz f hr)
  | error e =>
    rw [← hs.fails _ hz e hr]
    cases e <;> simp

end

def readOnce (data : Bytes) (hd : data.length ≤ 64*1024) (err : ReadError) : Reader :=
  fun _ => ⟨data, hd, some err⟩

def diskHost (full : Option ℕ) (close : Option String) : Host :=
  ⟨"/tmp", fun _ _ => .ok "spool", fun i => if full = some i then some (0, "full") else none, close⟩

/-- The write of the chunk fails in the loop, after that of the empty memory. -/
theorem failed_write_removed :
    let stream := readOnce [1] (by decide) .eof
    (spoolToFile (diskHost (some 2) none) stream { mode := "disk" } 1 {}).result =
        .error (.failed "full") ∧
      (spoolToFile (diskHost (some 2) none) stream { mode := "disk" } 1 {}).state.file = none := by
  refine ⟨rfl, (@spool_not_leaked_iff (diskHost (some 2) none) (fun _ _ _ h => by cases h; decide)
    _ { mode := "disk" } 1).mpr (fun ⟨k, hk, _, hv⟩ => ?_) "full" rfl⟩
  obtain rfl := Nat.lt_one_iff.mp hk
  rcases hv.2 with ⟨hz, -⟩ | ⟨ha, -⟩
  · cases hz
  · cases ha 1 (by decide)

theorem failed_close_leaks :
    let stream := readOnce [1] (by decide) .eof
    (spoolToFile (diskHost none (some "full")) stream {} 1 {}).result = .error (.failed "full") ∧
      (spoolToFile (diskHost none (some "full")) stream {} 1 {}).state.file = some [1] :=
  ⟨rfl, rfl⟩

end SdkApi.SpoolCleanup
