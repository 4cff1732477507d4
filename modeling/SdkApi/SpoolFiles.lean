import Mathlib.Data.List.Range
import SdkApi.SeenStates

/-!
# Spooling a stream to a file

`SpoolToFile` reads a stream into memory up to a limit and from there on into
a temporary file. The reader answers each call with a chunk and possibly an
error or the end of the stream; creating, writing and closing the file may
fail, a write also after a part of its bytes. Sizes are unbounded: neither a
buffer nor a file comes near the range of its counter.
-/

namespace SdkApi.SpoolFiles
open SeenStates List

abbrev Bytes := List UInt8

inductive ReadError where
  | eof
  | failed (msg : String)

/-- The answer to a call of `Read`, which fits into the buffer. -/
structure Read where
  data : Bytes
  fits : data.length ≤ 64*1024
  err : Option ReadError

abbrev Reader := ℕ → Read

structure Host where
  tempDir : String
  createTemp : ℕ → String → Except String String
  write : ℕ → Option (ℕ × String)
  close : Option String

structure SpoolConfig where
  mode : String := ""
  memoryLimit : ℤ := 0
  dir : String := ""

structure Settings where
  limit : ℤ
  dir : String
  mode : String

structure Spooler where
  mem : Bytes := []
  file : Option Bytes := none
  path : String := ""
  size : ℤ := 0
  calls : ℕ := 0

structure SpooledFile where
  path : String
  size : ℤ

inductive Stop where
  | pending
  | failed (msg : String)

abbrev Spooling := Prog Spooler Stop

section

variable (host : Host) (S : Settings) (stream : Reader)

def fileWrite (data : Bytes) : Spooling Unit := do
  let sp ← Prog.get
  match host.write sp.calls with
  | none =>
    Prog.assign fun sp => { sp with file := sp.file.map (·++data), calls := sp.calls+1 }
  | some (n,msg) =>
    Prog.assign fun sp => { sp with file := sp.file.map (·++data.take n), calls := sp.calls+1 }
    Prog.fail (.failed msg)

def spill : Spooling Unit := do
  let sp ← Prog.get
  match host.createTemp sp.calls S.dir with
  | .error msg => Prog.fail (.failed msg)
  | .ok name =>
    Prog.assign fun sp => { sp with file := some [], path := name, calls := sp.calls+1 }
    fileWrite host sp.mem
    Prog.assign fun sp => { sp with mem := [] }

def useDisk (sp : Spooler) (chunk : Bytes) : Bool :=
  S.mode = "disk" ||
    (S.mode ≠ "memory" && sp.file.isNone && S.limit < (sp.mem.length : ℤ)+chunk.length)

/-- The decision at the start of `writeChunk`. -/
def makeRoom (chunk : Bytes) : Spooling Unit := do
  let sp ← Prog.get
  if useDisk S sp chunk ∧ sp.file = none then spill host S else pure ()

def append (chunk : Bytes) : Spooling Unit := do
  let sp ← Prog.get
  if sp.file ≠ none then fileWrite host chunk
  else Prog.assign fun sp => { sp with mem := sp.mem++chunk }

def writeChunk (chunk : Bytes) : Spooling Unit := do
  makeRoom host S chunk
  append host chunk
  Prog.assign fun sp => { sp with size := sp.size+chunk.length }

/-- A read without data is not written. -/
def store (r : Read) : Spooling Unit :=
  if r.data ≠ [] then writeChunk host S r.data else pure ()

/-- The loop from the read `i` on, for at most `n` reads. -/
def ingest : ℕ → ℕ → Spooling Unit
  | 0, _ => Prog.fail .pending
  | n+1, i => do
    store host S (stream i)
    match (stream i).err with
    | some .eof => pure ()
    | some (.failed msg) => Prog.fail (.failed msg)
    | none => ingest n (i+1)

def toDisk : Spooling Unit := do
  let sp ← Prog.get
  if sp.file = none then spill host S else pure ()

def finish : Spooling SpooledFile := do
  toDisk host S
  match host.close with
  | some msg => Prog.fail (.failed msg)
  | none =>
    let sp ← Prog.get
    pure ⟨sp.path,sp.size⟩

def cleanup : Stop → Spooler → Spooler
  | .pending, sp => sp
  | .failed _, sp => if sp.path = "" then sp else { sp with file := none }

end

def settings (host : Host) (cfg : SpoolConfig) : Settings where
  limit := if cfg.memoryLimit ≤ 0 then 4*1024*1024 else cfg.memoryLimit
  dir := if cfg.dir = "" then host.tempDir else cfg.dir
  mode := if cfg.mode = "" then "auto" else cfg.mode

/-- `n` bounds the number of reads. -/
def spoolToFile (host : Host) (stream : Reader) (cfg : SpoolConfig) (n : ℕ) :
    Spooling SpooledFile := do
  (ingest host (settings host cfg) stream n 0).rescue cleanup
  finish host (settings host cfg)

section

variable (host : Host) (S : Settings) (stream : Reader)

/-- While there is a file, the memory is empty or being copied into it. -/
structure Bounded (sp : Spooler) : Prop where
  memory : S.mode ≠ "memory" → (sp.mem.length : ℤ) ≤ S.limit
  copied : ∀ content, sp.file = some content → sp.mem = [] ∨ content <+: sp.mem

def Faulty : Prop :=
  (∃ i, host.write i ≠ none) ∨ (∃ i dir msg, host.createTemp i dir = .error msg) ∨
    host.close ≠ none ∨ ∃ i msg, (stream i).err = some (.failed msg)

/-- The stream ends at the read `k`, counted from `i` on. -/
def EndsAt (i k : ℕ) : Prop :=
  (stream k).err = some .eof ∧ ∀ j, i ≤ j → j < k → (stream j).err = none

/-- The bytes of the reads from `i` to `k`. -/
def delivered (i k : ℕ) : Bytes := (List.range' i (k+1-i)).flatMap fun j => (stream j).data

/-- The bytes of the reads before `i`. -/
def before (i : ℕ) : Bytes := (range i).flatMap fun j => (stream j).data

/-- With `c` writes before, the read `j` has data that do not stay in memory. -/
def toFile (c j : ℕ) : Bool :=
  (stream j).data ≠ [] ∧ (0 < c ∨ S.mode = "disk" ∨
    S.mode ≠ "memory" ∧ S.limit < ((before stream (j+1)).length : ℤ))

def next (c j : ℕ) : ℕ := if toFile S stream c j then max c 1+1 else c

/-- The writes of the loop before the read `i`; the first of them copies the memory. -/
def writes : ℕ → ℕ
  | 0 => 0
  | i+1 => next S stream (writes i) i

def Created : Prop := ∃ name, host.createTemp 0 S.dir = .ok name

/-- After `c` writes, which all went well. -/
structure Holding (c : ℕ) (data : Bytes) (sp : Spooler) : Prop where
  memory : S.mode ≠ "memory" → (sp.mem.length : ℤ) ≤ S.limit
  place : (sp.file = none ∧ sp.mem = data ∧ sp.calls = 0 ∧ c = 0) ∨
    sp.file = some data ∧ sp.mem = [] ∧ 0 < c ∧ sp.calls = c+1 ∧
      host.createTemp 0 S.dir = .ok sp.path
  written : ∀ j < c, host.write (j+1) = none
  size : sp.size = data.length

/-- There is no file because it cannot be created, or one of `c` writes has failed. -/
structure Aborted (c : ℕ) (e : Stop) (sp : Spooler) : Prop where
  stopped : e ≠ .pending
  bounded : Bounded S sp
  cause : sp.file = none ∧ ¬Created host S ∨ sp.file ≠ none ∧
    host.createTemp 0 S.dir = .ok sp.path ∧ ∃ j < c, host.write (j+1) ≠ none

/-- There is a file exactly if the read `i` goes to it. -/
def Placed (c i : ℕ) (sp : Spooler) : Prop :=
  if toFile S stream c i then sp.file ≠ none ∧ Holding host S (max c 1) (before stream i) sp
  else sp.file = none ∧ Holding host S c (before stream i) sp

end

section

variable {host : Host} {S : Settings} {stream : Reader} {data : Bytes} {c : ℕ} {sp : Spooler}

lemma Holding.bounded (h : Holding host S c data sp) : Bounded S sp where
  memory := h.memory
  copied content hi := by
    rcases h.place with ⟨hn,-⟩ | ⟨-,hm,-⟩
    · rw [hn] at hi
      cases hi
    · exact .inl hm

lemma fileWrite_spec {content : Bytes} (hi : sp.file = some content)
    (hm : sp.mem = [] ∨ content++data <+: sp.mem)
    (hl : S.mode ≠ "memory" → (sp.mem.length : ℤ) ≤ S.limit) (hc : sp.calls = c+1)
    (hn : host.createTemp 0 S.dir = .ok sp.path) :
    Keeps (Bounded S) (· = sp) (fileWrite host data)
      (fun _ u => u = { sp with file := some (content++data), calls := c+2 } ∧
        host.write (c+1) = none)
      (Aborted host S (c+1)) := by
  have ht : ∀ part, part <+: data →
      Bounded S { sp with file := some (content++part), calls := sp.calls+1 } := by
    intro part he
    refine ⟨hl,fun c hc => ?_⟩
    cases hc
    exact hm.imp_right ((prefix_append_right_inj content).mpr he).trans
  apply keeps_get
  rintro s rfl
  rw [hc]
  cases hw : host.write (c+1) with
  | none =>
    apply keeps_assign
    · rintro u rfl
      rw [hi]
      exact ht data (prefix_refl _)
    · rintro u rfl
      rw [hi, hc]
      exact ⟨rfl,rfl⟩
  | some failure =>
    have hcu := ht (data.take failure.1) (List.take_prefix _ _)
    apply keeps_bind (Q := fun _ u => Bounded S u ∧ u.file ≠ none ∧ u.path = s.path)
    · apply keeps_assign
      · rintro u rfl
        rw [hi]
        exact hcu
      · rintro u rfl
        rw [hi]
        exact ⟨hcu,by simp,rfl⟩
    · intro _
      exact keeps_fail fun u hu =>
        ⟨nofun,hu.1,.inr ⟨hu.2.1,hu.2.2 ▸ hn,c,Nat.lt_succ_self c,by simp [hw]⟩⟩

lemma Holding.onDisk (h : Holding host S c data sp) {path : String}
    (hp : host.createTemp 0 S.dir = .ok path) (hw : host.write 1 = none) :
    Holding host S 1 data { sp with file := some data, mem := [], path := path, calls := 2 } where
  memory hm := by
    have ho := h.memory hm
    simp only [length_nil]
    omega
  place := .inr ⟨rfl,rfl,Nat.one_pos,rfl,hp⟩
  written j hj := by rwa [Nat.lt_one_iff.mp hj]
  size := h.size

lemma Holding.inMemory (h : Holding host S c data sp) (hi : sp.file = none) :
    sp.mem = data ∧ sp.calls = 0 ∧ c = 0 := by
  rcases h.place with ⟨-,hm⟩ | ⟨ho,-⟩
  · exact hm
  · rw [hi] at ho
    cases ho

lemma Holding.onFile (h : Holding host S c data sp) (hi : sp.file ≠ none) :
    sp.file = some data ∧ sp.mem = [] ∧ 0 < c ∧ sp.calls = c+1 ∧
      host.createTemp 0 S.dir = .ok sp.path :=
  h.place.resolve_left fun hp => hi hp.1

lemma Aborted.mono {d : ℕ} {e : Stop} (h : Aborted host S c e sp) (hc : c ≤ d) :
    Aborted host S d e sp :=
  ⟨h.stopped,h.bounded,h.cause.imp_right fun ⟨hf,hp,j,hj,hw⟩ => ⟨hf,hp,j,hj.trans_le hc,hw⟩⟩

lemma spill_spec (h : Holding host S c data sp) (hl : sp.file = none) :
    Keeps (Bounded S) (· = sp) (spill host S)
      (fun _ u => Holding host S 1 data u ∧ u.file = some data) (Aborted host S 1) := by
  obtain ⟨hm,hc,-⟩ := h.inMemory hl
  apply keeps_get
  rintro s rfl
  rw [hc]
  cases ht : host.createTemp 0 S.dir with
  | error msg =>
    apply keeps_fail
    rintro u rfl
    refine ⟨nofun,h.bounded,.inl ⟨hl,fun ⟨name,hn⟩ => ?_⟩⟩
    rw [ht] at hn
    cases hn
  | ok name =>
    apply keeps_bind (Q := fun _ u => u = { s with file := some [], path := name, calls := 1 })
    · apply keeps_assign
      · rintro u rfl
        refine ⟨h.memory,fun c hc => .inr ?_⟩
        cases hc
        exact nil_prefix
      · rintro u rfl
        rw [hc]
    · intro _
      -- until the buffer is reset its bytes are in both places
      apply keeps_bind (@fileWrite_spec host S s.mem 0
        { s with file := some [], path := name, calls := 1 } [] rfl (.inr (prefix_refl _))
        h.memory rfl ht)
      intro _
      rw [← hm]
      apply keeps_assign
      · rintro u ⟨rfl,hw⟩
        exact (hm ▸ h.onDisk ht hw).bounded
      · rintro u ⟨rfl,hw⟩
        exact ⟨hm ▸ h.onDisk ht hw,rfl⟩

variable {i k : ℕ}

lemma before_succ (i : ℕ) : before stream (i+1) = before stream i++(stream i).data := by
  simp [before, range_succ]

lemma le_next (c i : ℕ) : c ≤ next S stream c i := by
  rw [next]
  split_ifs <;> omega

lemma writes_mono (h : i ≤ k) : writes S stream i ≤ writes S stream k := by
  induction h with
  | refl => exact le_refl _
  | step _ ih => exact ih.trans (le_next _ _)

lemma makeRoom_spec (hd : (stream i).data ≠ []) :
    Keeps (Bounded S) (Holding host S c (before stream i)) (makeRoom host S (stream i).data)
      (fun _ => Placed host S stream c i) (Aborted host S (next S stream c i)) := by
  apply keeps_get
  intro s h
  by_cases hi : s.file = none
  · obtain ⟨hm,-,rfl⟩ := h.inMemory hi
    have hu : useDisk S s (stream i).data = toFile S stream 0 i := by
      simp [useDisk, toFile, hi, hd, hm, before_succ]
    rw [hu]
    apply keeps_ite
    · intro ht
      apply keeps_weaken (spill_spec h hi) (fun _ hu => hu)
      · rintro _ u ⟨hu,hf⟩
        rw [Placed, if_pos ht.1]
        exact ⟨by simp [hf],hu⟩
      · exact fun e u hu => hu.mono (by simp [next, ht.1])
    · intro ht
      apply keeps_ret
      rintro u rfl
      rw [Placed, if_neg fun hf => ht ⟨hf,hi⟩]
      exact ⟨hi,h⟩
  · rw [if_neg fun ht => hi ht.2]
    apply keeps_ret
    rintro u rfl
    have hc := (h.onFile hi).2.2.1
    rw [Placed, if_pos (by simp [toFile, hd, hc]), max_eq_left hc]
    exact ⟨hi,h⟩

lemma append_spec :
    Keeps (Bounded S) (Placed host S stream c i) (append host (stream i).data)
      (fun _ u => Holding host S (next S stream c i) (before stream (i+1))
        { u with size := u.size+(stream i).data.length })
      (Aborted host S (next S stream c i)) := by
  apply keeps_get
  intro s hs
  rw [Placed] at hs
  rw [next, before_succ]
  by_cases ht : toFile S stream c i = true
  · rw [if_pos ht] at hs ⊢
    obtain ⟨hi,h⟩ := hs
    obtain ⟨hf,hm,-,hca,hp⟩ := h.onFile hi
    rw [if_pos hi]
    apply keeps_weaken (fileWrite_spec hf (.inl hm) h.memory hca hp) (fun _ hu => hu) _
      (fun _ _ he => he)
    rintro _ u ⟨rfl,hw⟩
    refine ⟨h.memory,.inr ⟨rfl,hm,Nat.succ_pos _,rfl,hp⟩,fun j hj => ?_,by simp [h.size]⟩
    rcases Nat.lt_succ_iff_lt_or_eq.mp hj with hj | rfl
    · exact h.written j hj
    · exact hw
  · rw [if_neg ht] at hs ⊢
    obtain ⟨hi,h⟩ := hs
    obtain ⟨hm,hc,hz⟩ := h.inMemory hi
    rw [if_neg (not_not.mpr hi)]
    have hl : S.mode ≠ "memory" → ((s.mem++(stream i).data).length : ℤ) ≤ S.limit := by
      intro hmo
      by_cases hd : (stream i).data = []
      · simpa [hd] using h.memory hmo
      · rw [hm, ← before_succ]
        exact Int.not_lt.mp fun hn => ht (by simp [toFile, hd, hmo, hn])
    apply keeps_assign
    · rintro u rfl
      exact ⟨hl,fun c hc => by rw [hi] at hc; cases hc⟩
    · rintro u rfl
      exact ⟨hl,.inl ⟨hi,by rw [hm],hc,hz⟩,h.written,by simp [h.size]⟩

lemma store_spec :
    Keeps (Bounded S) (Holding host S c (before stream i)) (store host S (stream i))
      (fun _ => Holding host S (next S stream c i) (before stream (i+1)))
      (Aborted host S (next S stream c i)) := by
  apply keeps_ite
  · intro hd
    apply keeps_bind (makeRoom_spec hd)
    intro _
    apply keeps_bind append_spec
    intro _
    exact keeps_assign (fun u hu => hu.bounded) (fun u hu => hu)
  · intro hd
    rw [not_not] at hd
    rw [next, if_neg (by simp [toFile, hd]), before_succ, hd, append_nil]
    exact keeps_ret fun u hu => hu

lemma EndsAt.step (h : EndsAt stream (i+1) k) (hi : (stream i).err = none) : EndsAt stream i k := by
  refine ⟨h.1,fun j h1 h2 => ?_⟩
  rcases Nat.eq_or_lt_of_le h1 with rfl | hl
  · exact hi
  · exact h.2 j hl h2

lemma EndsAt.tail (h : EndsAt stream i k) (hi : (stream i).err ≠ some .eof) (hk : i ≤ k) :
    (stream i).err = none ∧ i < k ∧ EndsAt stream (i+1) k := by
  have hl : i < k := hk.lt_of_ne fun he => hi (he ▸ h.1)
  exact ⟨h.2 i (le_refl i) hl,hl,h.1,fun j h1 h2 => h.2 j (by omega) h2⟩

/-- The loop has stopped before the end of the stream, or by a fault that comes before it. -/
structure Broken (host : Host) (S : Settings) (stream : Reader) (i n : ℕ) (e : Stop)
    (sp : Spooler) : Prop where
  bounded : Bounded S sp
  tracked : sp.file = none ∨ host.createTemp 0 S.dir = .ok sp.path
  pending : e = .pending → sp.file = none ∨ sp.mem = []
  fault : ∀ k < i+n, i ≤ k → EndsAt stream i k →
    ¬Created host S ∨ ∃ j < writes S stream (k+1), host.write (j+1) ≠ none

lemma Holding.broken {n : ℕ} {e : Stop} (h : Holding host S c data sp)
    (hf : ∀ k < i+n, i ≤ k → ¬EndsAt stream i k) : Broken host S stream i n e sp where
  bounded := h.bounded
  tracked := h.place.imp (·.1) (·.2.2.2.2)
  pending _ := h.place.imp (·.1) (·.2.1)
  fault k hk hi he := absurd he (hf k hk hi)

lemma Aborted.broken {n : ℕ} {e : Stop} (h : Aborted host S (writes S stream (i+1)) e sp) :
    Broken host S stream i n e sp where
  bounded := h.bounded
  tracked := h.cause.imp (·.1) (·.2.1)
  pending hp := absurd hp h.stopped
  fault _ _ hi _ := h.cause.imp (·.2) fun ⟨_,_,j,hj,hw⟩ =>
    ⟨j,hj.trans_le (writes_mono (Nat.succ_le_succ hi)),hw⟩

lemma ingest_spec (n i : ℕ) :
    Keeps (Bounded S) (Holding host S (writes S stream i) (before stream i))
      (ingest host S stream n i)
      (fun _ u => ∃ k < i+n, EndsAt stream i k ∧
        Holding host S (writes S stream (k+1)) (before stream (k+1)) u)
      (Broken host S stream i n) := by
  induction n generalizing i with
  | zero => exact keeps_fail fun u hu => hu.broken fun k hk hi => by omega
  | succ n ih =>
    apply keeps_bind (keeps_weaken store_spec (fun _ hu => hu) (fun _ _ hu => hu)
      (fun _ _ he => he.broken))
    intro _
    cases her : (stream i).err with
    | none =>
      apply keeps_weaken (ih (i+1)) (fun _ hu => hu)
      · rintro _ u ⟨k,hk,hen,hu⟩
        exact ⟨k,by omega,hen.step her,hu⟩
      · intro e u hu
        refine ⟨hu.bounded,hu.tracked,hu.pending,fun k hk hi he => ?_⟩
        obtain ⟨-,hl,he⟩ := he.tail (by simp [her]) hi
        exact hu.fault k (by omega) hl he
    | some err =>
      cases err with
      | eof => exact keeps_ret fun u hu => ⟨i,by omega,⟨her,fun j h1 h2 => by omega⟩,hu⟩
      | failed msg =>
        refine keeps_fail fun u hu => hu.broken fun k hk hi he => ?_
        cases her.symm.trans (he.tail (by simp [her]) hi).1

lemma toDisk_spec :
    Keeps (Bounded S) (Holding host S c data) (toDisk host S)
      (fun _ u => Holding host S (max c 1) data u ∧ u.file = some data)
      (fun e u => Aborted host S 1 e u ∧ c = 0) := by
  apply keeps_get
  intro s h
  apply keeps_ite
  · intro hi
    have hc := (h.inMemory hi).2.2
    apply keeps_weaken (spill_spec h hi) (fun _ hu => hu) _ (fun _ _ he => ⟨he,hc⟩)
    rw [hc]
    exact fun _ _ hu => hu
  · intro hi
    apply keeps_ret
    rintro u rfl
    obtain ⟨hf,-,hc,-⟩ := h.onFile hi
    exact ⟨by rwa [max_eq_left hc],hf⟩

/-- The file is created and then filled or closed in vain: the only write fails, or all writes
succeed and closing it fails. -/
def InVain (host : Host) (S : Settings) (c : ℕ) : Prop :=
  Created host S ∧ (c = 0 ∧ host.write 1 ≠ none ∨
    (∀ j < max c 1, host.write (j+1) = none) ∧ host.close ≠ none)

lemma finish_spec :
    Keeps (Bounded S) (Holding host S c data) (finish host S)
      (fun f u => Holding host S (max c 1) data u ∧ u.file = some data ∧
        f = ⟨u.path,data.length⟩ ∧ host.close = none)
      (fun e u => e ≠ .pending ∧ Bounded S u ∧ (u.file = none ∧ ¬Created host S ∨
        u.file ≠ none ∧ InVain host S c)) := by
  apply keeps_bind (keeps_weaken toDisk_spec (fun _ hu => hu) (fun _ _ hu => hu) _)
  · intro _
    cases hl : host.close with
    | some msg =>
      apply keeps_fail
      rintro u ⟨hu,hf⟩
      have ho := hu.onFile (by simp [hf])
      exact ⟨nofun,hu.bounded,.inr ⟨by simp [hf],⟨_,ho.2.2.2.2⟩,.inr ⟨hu.written,by simp [hl]⟩⟩⟩
    | none =>
      apply keeps_get
      rintro s ⟨hs,hi⟩
      apply keeps_ret
      rintro u rfl
      exact ⟨hs,hi,by rw [hs.size],rfl⟩
  · rintro e u ⟨hu,hc⟩
    refine ⟨hu.stopped,hu.bounded,hu.cause.imp_right fun ⟨hf,hp,j,hj,hw⟩ => ?_⟩
    rw [Nat.lt_one_iff.mp hj] at hw
    exact ⟨hf,⟨_,hp⟩,.inl ⟨hc,hw⟩⟩

lemma Bounded.cleanup {sp : Spooler} (h : Bounded S sp) (e : Stop) : Bounded S (cleanup e sp) := by
  cases e with
  | pending => exact h
  | failed msg =>
    simp only [SpoolFiles.cleanup]
    split
    · exact h
    · exact ⟨h.memory,nofun⟩

lemma settings_limit_pos (host : Host) (cfg : SpoolConfig) : 0 < (settings host cfg).limit := by
  simp only [settings]
  split <;> omega

lemma settings_mode {host : Host} {cfg : SpoolConfig} (h : cfg.mode ≠ "memory") :
    (settings host cfg).mode ≠ "memory" := by
  simp only [settings]
  split
  · decide
  · exact h

lemma holding_start (host : Host) (cfg : SpoolConfig) :
    Holding host (settings host cfg) 0 [] {} where
  memory _ := Int.le_of_lt (settings_limit_pos host cfg)
  place := .inl ⟨rfl,rfl,rfl,rfl⟩
  written j hj := absurd hj (Nat.not_lt_zero j)
  size := rfl

lemma delivered_zero (k : ℕ) : delivered stream 0 k = before stream (k+1) := by
  rw [delivered, before, range_eq_range']
  rfl

lemma faulty_of_not_created (h : ¬Created host S) : Faulty host stream := by
  cases hc : host.createTemp 0 S.dir with
  | ok name => exact absurd ⟨name,hc⟩ h
  | error msg => exact .inr (.inl ⟨_,_,_,hc⟩)

lemma spoolToFile_spec (cfg : SpoolConfig) (n : ℕ) :
    Keeps (Bounded (settings host cfg)) (Holding host (settings host cfg) 0 [])
      (spoolToFile host stream cfg n)
      (fun f u => ∃ k < n, EndsAt stream 0 k ∧ u.file = some (delivered stream 0 k) ∧
        u.mem = [] ∧ f = ⟨u.path,(delivered stream 0 k).length⟩)
      (fun e u => (e = .pending → u.file = none ∨ u.mem = []) ∧
        ∀ k < n, EndsAt stream 0 k → Faulty host stream) := by
  apply keeps_bind (keeps_rescue (ingest_spec n 0))
  · intro _
    apply keeps_of_states
    rintro s ⟨k,hk,hn,hs⟩
    apply keeps_weaken finish_spec
    · rintro u rfl
      exact hs
    · rintro f u ⟨hu,hl,hf,-⟩
      refine ⟨k,by omega,hn,?_⟩
      rw [delivered_zero]
      exact ⟨hl,(hu.onFile (by simp [hl])).2.1,hf⟩
    · rintro e u ⟨hp,-,hc⟩
      refine ⟨fun he => absurd he hp,fun _ _ _ => ?_⟩
      rcases hc with ⟨-,hc⟩ | ⟨-,-,⟨-,hw⟩ | ⟨-,hc⟩⟩
      · exact faulty_of_not_created hc
      · exact .inl ⟨1,hw⟩
      · exact .inr (.inr (.inl hc))
  · exact fun e u hu => hu.bounded.cleanup e
  · intro e u hu
    refine ⟨?_,fun k hk he => ?_⟩
    · rintro rfl
      exact hu.pending rfl
    · rcases hu.fault k (by omega) (Nat.zero_le k) he with hc | ⟨j,-,hw⟩
      · exact faulty_of_not_created hc
      · exact .inl ⟨_,hw⟩

end

/-- The file has what the reader delivered up to the end of the stream, and the
call returns when the stream ends and no call fails. The memory is bounded;
while there is a file it is at most the part that is being copied. -/
theorem spoolToFile_faithful (host : Host) (stream : Reader) (cfg : SpoolConfig) (n : ℕ) :
    (∀ f, (spoolToFile host stream cfg n {}).result = .ok f →
      ∃ k < n, EndsAt stream 0 k ∧
        (spoolToFile host stream cfg n {}).state.file = some (delivered stream 0 k) ∧
        (spoolToFile host stream cfg n {}).state.mem = [] ∧
        f.path = (spoolToFile host stream cfg n {}).state.path ∧
        f.size = (delivered stream 0 k).length) ∧
    (∀ k < n, EndsAt stream 0 k → ¬Faulty host stream →
      ∃ f, (spoolToFile host stream cfg n {}).result = .ok f) ∧
    (∀ u ∈ (spoolToFile host stream cfg n {}).seen,
      (cfg.mode ≠ "memory" → (u.mem.length : ℤ) ≤ (settings host cfg).limit) ∧
      ∀ content, u.file = some content → u.mem = [] ∨ content <+: u.mem) ∧
    ((spoolToFile host stream cfg n {}).result = .error .pending →
      (spoolToFile host stream cfg n {}).state.file = none ∨
        (spoolToFile host stream cfg n {}).state.mem = []) := by
  have hl := @spoolToFile_spec host stream cfg n
  have ht := holding_start host cfg
  refine ⟨fun f hf => ?_,fun k hk he hso => ?_,fun u hu => ?_,fun hn => ?_⟩
  · obtain ⟨k,hk,he,hi,hm,rfl⟩ := hl.returns {} ht f hf
    exact ⟨k,hk,he,hi,hm,rfl,rfl⟩
  · cases hrs : (spoolToFile host stream cfg n {}).result with
    | ok f => exact ⟨f,rfl⟩
    | error e => exact absurd ((hl.fails {} ht e hrs).2 k hk he) hso
  · have hu := hl.seen {} ht u hu
    exact ⟨fun hm => hu.memory (settings_mode hm),hu.copied⟩
  · exact (hl.fails {} ht .pending hn).1 rfl

end SdkApi.SpoolFiles
