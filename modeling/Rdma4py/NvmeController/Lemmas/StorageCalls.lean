import Rdma4py.NvmeController.Lemmas.Storage

/-!
# The calls of a namespace

The commands of a call cover its range one after the other, so the front that was moved grows by whole commands.
-/

namespace Rdma4py.NvmeController.Storage

open Rdma4py.Lib
open NvmeQueue (Exn Outcome)

variable {t : Target} {ns : Namespace} {buffer : Region} {opcode lba remaining offset : Int} {s s₁ s' : System}
  {c : List UInt8} {cs done : List (List UInt8)} {execute : Nat → Option Exn} {k : Nat} {result : Except Exn Unit}

/-- The geometry of the namespace and the registration of the buffer, as the target knows them too. -/
structure Served (t : Target) (ns : Namespace) (buffer : Region) : Prop where
  nsid : 0 ≤ ns.nsid ∧ ns.nsid < 2 ^ 32
  lbaSize : 0 < ns.lbaSize
  sizeLbas : ns.sizeLbas ≤ 2 ^ 64 - 1
  limit : 1 ≤ ns.maxTransferBytes ∧ ns.maxTransferBytes ≤ 2 ^ 24 - 1
  addr : 0 ≤ buffer.addr ∧ buffer.addr + buffer.length ≤ 2 ^ 64
  rkey : 0 ≤ buffer.rkey ∧ buffer.rkey < 2 ^ 32
  known : (t.lbaSize ns.nsid.toNat : Int) = ns.lbaSize
  registered : t.region buffer.rkey.toNat = some buffer

/-! ## The commands of a range -/

theorem Transfer.part_copy (x : Transfer) (start n : Nat) :
    x.copy.part start n = (⟨x.stores, x.nsid, x.disk + start, x.host + start, n⟩ : Transfer).copy := by
  simp [Copy.part, Transfer.copy, Nat.add_assoc]

/-- What is left to move lies in the buffer. -/
structure Left (ns : Namespace) (buffer : Region) (lba remaining offset : Int) : Prop where
  start : 0 ≤ lba
  rest : 0 ≤ remaining
  front : 0 ≤ offset
  fits : offset + remaining * ns.lbaSize ≤ buffer.length

theorem Covers.first (hs : Served t ns buffer) (hl : Left ns buffer lba remaining offset)
    (h : Covers ns opcode buffer lba remaining offset (c :: cs)) : ∃ n : Nat,
      Transfers ns opcode buffer c ∧ lbaRange c = (lba.toNat, n) ∧
      sglRange c = ((buffer.addr + offset).toNat, n * ns.lbaSize.toNat) ∧
      Left ns buffer (lba + n) (remaining - n) (offset + n * ns.lbaSize) ∧
      Covers ns opcode buffer (lba + n) (remaining - n) (offset + n * ns.lbaSize) cs := by
  obtain ⟨each, lbas, bytes⟩ := h
  obtain ⟨hlba, -, hlbas⟩ := lbas
  obtain ⟨haddr, -, hbytes⟩ := bytes
  have htransfers := each c List.mem_cons_self
  have hsize := hs.lbaSize
  have hstart := hs.addr.1
  have hbuffer := hl.front
  have hpos := hl.start
  have hrest := hl.rest
  generalize hn : (lbaRange c).2 = n at *
  have hlength : (sglRange c).2 = n * ns.lbaSize.toNat := by
    have hbytes := htransfers.bytes
    rw [hn, ← Int.toNat_of_nonneg hsize.le, ← Int.natCast_mul] at hbytes
    exact Int.ofNat.inj hbytes
  have hfits : (n : Int) ≤ remaining := by
    have := hlbas.le
    omega
  have hmul : (n : Int) * ns.lbaSize + (remaining - n) * ns.lbaSize = remaining * ns.lbaSize := by
    rw [← Int.add_mul, show (n : Int) + (remaining - n) = remaining by omega]
  have hnonneg : 0 ≤ (n : Int) * ns.lbaSize := Int.mul_nonneg (by omega) hsize.le
  have hcast : ((n * ns.lbaSize.toNat : Nat) : Int) = n * ns.lbaSize := by
    rw [Int.natCast_mul, Int.toNat_of_nonneg hsize.le]
  refine ⟨n, htransfers, Prod.ext hlba hn, Prod.ext haddr hlength, ⟨by omega, by omega, by omega, ?_⟩,
    fun d hd => each d (List.mem_cons_of_mem c hd), ?_, ?_⟩
  · have := hl.fits
    omega
  · rw [show (lba + n).toNat = lba.toNat + n by omega, show lba + n + (remaining - n) = lba + remaining by omega]
    exact hlbas
  · rw [show (buffer.addr + (offset + n * ns.lbaSize)).toNat = (buffer.addr + offset).toNat + n * ns.lbaSize.toNat by omega,
      show buffer.addr + (offset + n * ns.lbaSize) + (remaining - n) * ns.lbaSize =
        buffer.addr + offset + remaining * ns.lbaSize by omega, ← hlength]
    exact hbytes

theorem copy_first (hs : Served t ns buffer) (hop : opcode = opcRead ∨ opcode = opcWrite)
    (hl : Left ns buffer lba remaining offset) {n : Nat} (hn : (n : Int) ≤ remaining) (hc : Transfers ns opcode buffer c)
    (hlba : lbaRange c = (lba.toNat, n)) (hsgl : sglRange c = ((buffer.addr + offset).toNat, n * ns.lbaSize.toNat)) :
    t.copy c = (range ns (opcode = opcWrite) buffer lba remaining offset).copy.part 0 (n * ns.lbaSize.toNat) := by
  have hsize := hs.lbaSize
  have hnsid : leNat (slice c 4 4) = ns.nsid.toNat := by
    have := hc.nsid
    omega
  have hrkey : leNat (slice c 35 4) = buffer.rkey.toNat := by
    have := hc.rkey
    omega
  have hblock : t.lbaSize ns.nsid.toNat = ns.lbaSize.toNat := by
    have := hs.known
    omega
  have hdisk : lba.toNat * ns.lbaSize.toNat = (lba * ns.lbaSize).toNat :=
    (Int.toNat_mul hl.start hsize.le).symm
  have hle : (n : Int) * ns.lbaSize ≤ remaining * ns.lbaSize := Int.mul_le_mul_of_nonneg_right hn hsize.le
  have hcast : ((n * ns.lbaSize.toNat : Nat) : Int) = n * ns.lbaSize := by
    rw [Int.natCast_mul, Int.toNat_of_nonneg hsize.le]
  have hbytes := hl.fits
  have hoffset := hl.front
  have hstart := hs.addr.1
  have hdecode : t.decode c =
      some ⟨opcode = opcWrite, ns.nsid.toNat, (lba * ns.lbaSize).toNat, (buffer.addr + offset).toNat,
        n * ns.lbaSize.toNat⟩ := by
    simp only [Target.decode, hlba, hsgl, hnsid, hrkey, hs.registered, hblock, hc.opcode, hdisk]
    rw [if_pos ⟨hop.symm, trivial, by omega, by omega⟩]
  rw [Target.copy_of_decode hdecode, Transfer.part_copy]
  rfl

/-- What is left after the first command. -/
theorem copy_rest (hs : Served t ns buffer) (hl : Left ns buffer lba remaining offset) {n : Nat}
    (hn : (n : Int) ≤ remaining) (stores : Bool) :
    n * ns.lbaSize.toNat ≤ (range ns stores buffer lba remaining offset).copy.length ∧
    (range ns stores buffer lba remaining offset).copy.part (n * ns.lbaSize.toNat)
        ((range ns stores buffer lba remaining offset).copy.length - n * ns.lbaSize.toNat) =
      (range ns stores buffer (lba + n) (remaining - n) (offset + n * ns.lbaSize)).copy := by
  have hsize := hs.lbaSize
  have hcast : ((n * ns.lbaSize.toNat : Nat) : Int) = n * ns.lbaSize := by
    rw [Int.natCast_mul, Int.toNat_of_nonneg hsize.le]
  have hle : (n : Int) * ns.lbaSize ≤ remaining * ns.lbaSize := Int.mul_le_mul_of_nonneg_right hn hsize.le
  have hnonneg : 0 ≤ (n : Int) * ns.lbaSize := Int.mul_nonneg (by omega) hsize.le
  have hlba : 0 ≤ lba * ns.lbaSize := Int.mul_nonneg hl.start hsize.le
  have haddr := hs.addr.1
  have hoffset := hl.front
  have hsplit : (remaining - n) * ns.lbaSize = remaining * ns.lbaSize - n * ns.lbaSize := Int.sub_mul ..
  have hjoin : (lba + n) * ns.lbaSize = lba * ns.lbaSize + n * ns.lbaSize := Int.add_mul ..
  refine ⟨?_, ?_⟩
  · show n * ns.lbaSize.toNat ≤ (remaining * ns.lbaSize).toNat
    omega
  · rw [Transfer.part_copy]
    congr 1
    simp only [range, Transfer.copy, hsplit, hjoin, Transfer.mk.injEq, true_and]
    omega

/-! ## The commands of a call -/

/-- How a call returns: with its range moved, or with an error, a front moved, and no more open than one command moves. Only
a timeout leaves a command pending. -/
def Returns (x : Copy Place) (limit : Int) (m : Media) (result : Except Exn Unit) (s : System) : Prop :=
  (result = .ok () ∧ Idle s ∧ x.Made m s.media) ∨
  ∃ e, ∃ moved opened : Nat, result = .error e ∧ ((∀ text, e ≠ .timeoutError text) → Idle s) ∧ (opened : Int) ≤ moved + limit ∧
    x.Moved moved opened m s.media

theorem Returns.refused {x : Copy Place} {limit : Int} {e : Exn} (h : Idle s) (hlimit : 0 ≤ limit) :
    Returns x limit s.media (.error e) s :=
  .inr ⟨e, 0, 0, rfl, fun _ => h, by simpa using hlimit, .refl x _⟩

/-- The first command of a loop. -/
theorem Ends.first (h : Ends execute k (c :: cs) done result) :
    (execute k = none ∧ ∃ done', done = c :: done' ∧ Ends execute (k + 1) cs done' result) ∨
    ∃ e, execute k = some e ∧ result = .error e ∧ done = [c] := by
  rcases h with ⟨hresult, rfl, hnone⟩ | ⟨j, e, hj, he, hnone, hresult, rfl⟩
  · refine .inl ⟨by simpa using hnone 0 (by simp), cs, rfl, .inl ⟨hresult, rfl, ?_⟩⟩
    intro i hi
    rw [Nat.add_right_comm]
    exact hnone (i + 1) (by simpa using hi)
  · cases j with
    | zero => exact .inr ⟨e, by simpa using he, hresult, rfl⟩
    | succ j =>
        refine .inl ⟨by simpa using hnone 0 (by simp), cs.take (j + 1), rfl, .inr ⟨j, e, by simpa using hj, ?_, ?_, hresult, rfl⟩⟩
        · rw [Nat.add_right_comm]
          exact he
        · intro i hi
          rw [Nat.add_right_comm]
          exact hnone (i + 1) (by omega)

/-- The loop of a transfer moves its range, or a front of it. -/
theorem Covers.returns (hs : Served t ns buffer) (hop : opcode = opcRead ∨ opcode = opcWrite)
    (hl : Left ns buffer lba remaining offset) (hc : Covers ns opcode buffer lba remaining offset cs)
    (he : Ends execute k cs done result) (hp : Performs t execute k s done s') (hi : Idle s) :
    Returns (range ns (opcode = opcWrite) buffer lba remaining offset).copy ns.maxTransferBytes s.media result s' := by
  induction cs generalizing k s lba remaining offset done with
  | nil =>
      have hnone : remaining = 0 := by
        have htiles : lba.toNat = (lba + remaining).toNat := hc.lbas
        have := hl.start
        have := hl.rest
        omega
      rcases he with ⟨rfl, rfl, -⟩ | ⟨j, e, hj, -⟩
      · cases hp
        subst hnone
        refine .inl ⟨rfl, hi, ?_⟩
        have hlength : (range ns (opcode = opcWrite) buffer lba 0 offset).copy.length = 0 := by simp [range, Transfer.copy]
        rw [Copy.Made, hlength]
        exact .refl _ _
      · exact absurd hj (Nat.not_lt_zero j)
  | cons c cs ih =>
      obtain ⟨n, htransfers, hlba, hsgl, hleft, hrest⟩ := Covers.first hs hl hc
      have hn : (n : Int) ≤ remaining := by
        have := hleft.rest
        omega
      have hfirst := copy_first hs hop hl hn htransfers hlba hsgl
      obtain ⟨hle, hcopy⟩ := copy_rest hs hl hn (opcode = opcWrite)
      have hapart := Transfer.apart (range ns (opcode = opcWrite) buffer lba remaining offset)
      have hlimit : ((n * ns.lbaSize.toNat : Nat) : Int) ≤ ns.maxTransferBytes := by
        have := htransfers.limit
        rwa [hsgl] at this
      rcases Ends.first he with ⟨hnone, done', rfl, hends⟩ | ⟨e, hsome, rfl, rfl⟩
      · cases hp with
        | cons hx ho hp =>
            rcases hx.ended hi with ⟨response, rfl, hidle, hmade⟩ | ⟨e, rfl, -⟩
            · rw [hfirst] at hmade
              rcases ih hleft hrest hends hp hidle with ⟨rfl, hidle', hmade'⟩ | ⟨e, moved, opened, rfl, hidle', hopen, hmoved⟩
              · refine .inl ⟨rfl, hidle', ?_⟩
                have happend := Copy.Moved.append hapart hle hmade (by rw [hcopy]; exact hmade')
                have hlength := congrArg Copy.length hcopy
                simp only [Copy.part] at hlength
                rw [← hlength, Nat.add_sub_cancel' hle] at happend
                exact happend
              · refine .inr ⟨e, n * ns.lbaSize.toNat + moved, n * ns.lbaSize.toNat + opened, rfl, hidle', by omega, ?_⟩
                exact Copy.Moved.append hapart hle hmade (by rw [hcopy]; exact hmoved)
            · rw [hnone] at ho
              cases ho
      · cases hp with
        | cons hx ho hp =>
            cases hp
            rcases hx.ended hi with ⟨response, rfl, -⟩ | ⟨e', rfl, hwithin, hidle⟩
            · rw [hsome] at ho
              cases ho
            · rw [hsome] at ho
              cases ho
              rw [hfirst] at hwithin
              exact .inr ⟨e, 0, n * ns.lbaSize.toNat, rfl, hidle, by omega, hwithin.front hapart hle⟩

/-! ## The calls -/

theorem transfer_returns (hs : Served t ns buffer) (hop : opcode = opcRead ∨ opcode = opcWrite) {fuel : Nat} {gpu : Bool}
    {slba : Int} {blocks : Option Int} {actions : List Action}
    (h : ns.transfer fuel opcode buffer gpu slba blocks offset execute = some (actions, result))
    (hp : Performs t execute 0 s (issued actions) s') (hi : Idle s) :
    Returns (range ns (opcode = opcWrite) buffer slba (ns.blocks buffer blocks offset) offset).copy ns.maxTransferBytes s.media
      result s' := by
  have hsize := hs.lbaSize
  have hmax := hs.limit
  have hrefused : ∀ actions e, issued actions = [] → some (actions, .error e) = some (actions, result) →
      Performs t execute 0 s (issued actions) s' → Returns (range ns (opcode = opcWrite) buffer slba
        (ns.blocks buffer blocks offset) offset).copy ns.maxTransferBytes s.media result s' := by
    intro actions e hnone heq hp
    rw [hnone] at hp
    cases hp
    cases heq
    exact .refused hi (by omega)
  unfold Namespace.transfer at h
  dsimp only at h
  split at h
  · cases h
    exact hrefused [] _ rfl rfl hp
  split at h
  · cases h
    exact hrefused [] _ rfl rfl hp
  next hrange =>
  split at h
  · cases h
    exact hrefused [] _ rfl rfl hp
  next hbytes =>
  split at h
  · cases h
    refine hrefused _ _ ?_ rfl hp
    split <;> rfl
  next hzero =>
  have hdiv : ns.maxTransferBytes / ns.lbaSize * ns.lbaSize ≤ ns.maxTransferBytes := Int.ediv_mul_le _ (by omega)
  have hnonneg : 0 ≤ ns.maxTransferBytes / ns.lbaSize := Int.ediv_nonneg (by omega) hsize.le
  have hmul : min 65536 (ns.maxTransferBytes / ns.lbaSize) * ns.lbaSize ≤
      ns.maxTransferBytes / ns.lbaSize * ns.lbaSize := Int.mul_le_mul_of_nonneg_right (by omega) hsize.le
  have hroom : Room ns opcode buffer (min 65536 (ns.maxTransferBytes / ns.lbaSize)) (ns.blocks buffer blocks offset)
      offset slba := by
    have hlbas := hs.sizeLbas
    exact ⟨hop, hs.nsid, hs.addr, hs.rkey, hsize, by omega, by omega, by omega, by omega, by omega⟩
  have hleft : Left ns buffer slba (ns.blocks buffer blocks offset) offset := ⟨by omega, by omega, by omega, by omega⟩
  obtain ⟨cs, actions', result', hloop, hcovers, hends⟩ := transferLoop_covers execute
    (max fuel ((ns.blocks buffer blocks offset).toNat + 1)) 0 hroom (by omega)
  cases hsome : transferLoop ns opcode buffer (min 65536 (ns.maxTransferBytes / ns.lbaSize)) execute fuel 0
      (ns.blocks buffer blocks offset) offset slba with
  | none =>
      rw [hsome] at h
      cases h
  | some x =>
      rw [transferLoop_mono (Nat.le_max_left _ _) hsome] at hloop
      cases hloop
      rw [hsome, Option.map_some] at h
      obtain ⟨hissued, hresult⟩ := surround_issued gpu opcode actions' result'
      rw [Option.some.inj h] at hissued hresult
      have hresult : result = result' := hresult
      rw [hissued] at hp
      rw [hresult]
      exact Covers.returns hs hop hleft hcovers hends hp hi

theorem copy_flush {command : List UInt8} (h : NvmeController.command opcFlush ns.nsid = .ok command) :
    t.copy command = (⟨true, 0, 0, 0, 0⟩ : Transfer).copy := by
  have hopcode := (flush_encodes h).reads.read (0, 1, 0) (by simp)
  have hdecode : t.decode command = none := by
    simp only [Target.decode, hopcode]
    split
    · rfl
    · exact if_neg fun hmoves => absurd hmoves.1 (by decide)
  rw [Target.copy, hdecode, Option.getD_none]

theorem flush_returns (hlimit : 0 ≤ ns.maxTransferBytes) (hp : Performs t execute 0 s (issued (ns.flush execute).1) s')
    (hi : Idle s) :
    Returns (⟨true, 0, 0, 0, 0⟩ : Transfer).copy ns.maxTransferBytes s.media (ns.flush execute).2 s' := by
  unfold Namespace.flush at hp ⊢
  cases hcommand : command opcFlush ns.nsid with
  | error e =>
      rw [hcommand] at hp
      cases hp
      exact .refused hi hlimit
  | ok command =>
      rw [hcommand] at hp
      cases hexecute : execute 0 with
      | some e =>
          simp only [hexecute, issued, List.filterMap_cons, Action.command?, List.filterMap_nil] at hp ⊢
          cases hp with
          | cons hx ho hp =>
              cases hp
              rcases hx.ended hi with ⟨response, rfl, -⟩ | ⟨e', rfl, hwithin, hidle⟩
              · rw [hexecute] at ho
                cases ho
              · rw [hexecute] at ho
                cases ho
                rw [copy_flush hcommand] at hwithin
                exact .inr ⟨e, 0, 0, rfl, hidle, by simpa using hlimit, hwithin.moved⟩
      | none =>
          simp only [hexecute, issued, List.filterMap_cons, Action.command?, List.filterMap_nil] at hp ⊢
          cases hp with
          | cons hx ho hp =>
              cases hp
              rcases hx.ended hi with ⟨response, rfl, hidle, hmade⟩ | ⟨e', rfl, -⟩
              · rw [copy_flush hcommand] at hmade
                exact .inl ⟨rfl, hidle, hmade⟩
              · rw [hexecute] at ho
                cases ho

end Rdma4py.NvmeController.Storage
