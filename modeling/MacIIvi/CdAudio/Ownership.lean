import MacIIvi.CdAudio.System

/-!
# Who owns the shared channel

The engine asks for the slot only when it was granted, owns it from its request
to the fall of the acknowledge, and takes the request back as soon as the
acknowledge is seen.
-/

namespace MacIIvi

open Clocked

namespace CdAudio

namespace Main

variable {w : MainIn} {s : Main}

/-- The clock leaves the request lines alone and does not enter `M_ACQ_WAIT`. -/
def OffChannel (s s' : Main) : Prop :=
  s'.blob.tocRd = s.blob.tocRd ∧ s'.blob.tocAct = s.blob.tocAct ∧ s'.mst ≠ .acqWait

theorem offChannel_div {next : MState} (here : s.mst ≠ .acqWait) (there : next ≠ .acqWait) :
    OffChannel s (stepDiv w s next) := by
  unfold stepDiv
  split
  · exact ⟨rfl, rfl, here⟩
  · exact ⟨rfl, rfl, there⟩

theorem offChannel_trackRead {offset : Nat} {next : MState} (here : s.mst ≠ .acqWait)
    (there : next ≠ .acqWait) : OffChannel s (stepTrackRead w s offset next) := by
  unfold stepTrackRead
  dsimp only
  split
  · exact ⟨rfl, rfl, there⟩
  · split
    · exact ⟨rfl, rfl, here⟩
    · exact ⟨rfl, rfl, here⟩
    · exact ⟨rfl, rfl, here⟩
    · exact ⟨rfl, rfl, here⟩
    · exact ⟨rfl, rfl, there⟩

/-- Only the two acquisition states touch the channel. -/
theorem next_offChannel (rst : w.rst = false) (req : s.mst ≠ .acqReq) (wait : s.mst ≠ .acqWait) :
    OffChannel s (next w s) := by
  simp only [next, rst, Bool.false_eq_true, if_false]
  cases mst : s.mst
  case acqReq => exact absurd mst req
  case acqWait => exact absurd mst wait
  case loDiv | trkDiv | t43Div => exact offChannel_div wait (by simp)
  case trkRd | t43Rd | t2Rd => exact offChannel_trackRead wait (by simp)
  all_goals
    simp only [stepIdle, acquire, stepHdrRd, stepEmitH, stepEmitLo, stepEmitTrk, stepBuilt,
      stepT43Hdr, stepT43Emit, stepT2Hdr, stepT2Div, stepT2Trk, stepT2A2, stepT2A01, stepT2Sess,
      stepCmd, stepCtrkRd, stepScanGo, stepApply, stepRefScan, stepRefDiva, stepRefDivr, putT2]
    repeat' split
    all_goals
      refine ⟨rfl, rfl, ?_⟩
      first
      | simp; done
      | exact wait

end Main

namespace Engine

variable {w : EngineIn} {e : Engine}

/-- A request of the engine is inside the window in which it owns the channel,
and has been taken back once the acknowledge was seen. -/
structure Owning (e : Engine) : Prop where
  tocRd : e.main.blob.tocRd = true → e.main.blob.tocAct = true
  tocAct : e.main.blob.tocAct = true → e.main.mst = .acqWait
  frRd : e.ff.frRd = true → e.ff.frAct = true
  frAct : e.ff.frAct = true → e.ff.fst = .wait
  seen : e.oldAck = true → e.main.blob.tocRd = false ∧ e.ff.frRd = false

theorem Owning.active_of_rd (own : Owning e) (rd : e.ioRd = true) : e.ioActive = true := by
  simp only [ioRd, Bool.or_eq_true] at rd
  rcases rd with toc | fr
  · simp [ioActive, own.tocRd toc]
  · simp [ioActive, own.frRd fr]

/-- What one clock does to the blob fetch. -/
inductive TocMove (w : MainIn) (s s' : Main) : Prop where
  | keep (rd : s'.blob.tocRd = (s.blob.tocRd && !w.ioAck)) (act : s'.blob.tocAct = s.blob.tocAct)
      (mst : s'.blob.tocAct = true → s'.mst = .acqWait)
  | start (grant : w.grant = true) (free : w.frAct = false) (before : s.blob.tocAct = false)
      (rd : s'.blob.tocRd = true) (act : s'.blob.tocAct = true) (mst : s'.mst = .acqWait)
  | finish (fall : w.ackFall = true) (rd : s'.blob.tocRd = (s.blob.tocRd && !w.ioAck))
      (act : s'.blob.tocAct = false)

theorem tocMove {w : MainIn} {s : Main} (rst : w.rst = false)
    (rdAct : s.blob.tocRd = true → s.blob.tocAct = true)
    (act : s.blob.tocAct = true → s.mst = .acqWait) : TocMove w s (s.next w) := by
  by_cases req : s.mst = .acqReq
  · have noAct : s.blob.tocAct = false := by
      by_contra on
      have := act (by simpa using on)
      simp [req] at this
    have noRd : s.blob.tocRd = false := by
      by_contra on
      have := rdAct (by simpa using on)
      simp [noAct] at this
    simp only [Main.next, rst, req, Main.stepAcqReq, Bool.false_eq_true, if_false]
    split
    · exact .keep (by simp [Main.preamble, noRd]) rfl (by simp [Main.preamble, noAct])
    · split
      · rename_i go
        simp only [Bool.and_eq_true, Bool.not_eq_true'] at go
        exact .start go.1 go.2 noAct rfl rfl rfl
      · exact .keep (by simp [Main.preamble, noRd]) rfl (by simp [Main.preamble, noAct])
  · by_cases wait : s.mst = .acqWait
    · simp only [Main.next, rst, wait, Main.stepAcqWait, Bool.false_eq_true, if_false]
      split
      · rename_i fall
        simp only [Bool.and_eq_true] at fall
        split
        · exact .finish fall.1 rfl rfl
        · exact .finish fall.1 rfl rfl
      · split
        · rename_i gone
          simp only [Bool.and_eq_true, Bool.not_eq_true'] at gone
          have noRd : s.blob.tocRd = false := by
            by_contra on
            have := rdAct (by simpa using on)
            simp [gone.2] at this
          exact .keep (by simp [noRd]) rfl (by simp [gone.2])
        · exact .keep rfl rfl fun _ => wait
    · have noAct : s.blob.tocAct = false := by
        by_contra on
        exact wait (act (by simpa using on))
      have noRd : s.blob.tocRd = false := by
        by_contra on
        have := rdAct (by simpa using on)
        simp [noAct] at this
      obtain ⟨rd', act', -⟩ := Main.next_offChannel rst req wait
      exact .keep (by rw [rd', noRd]; rfl) act' (by rw [act', noAct]; simp)

/-- What one clock does to the frame fetch. -/
inductive FrameMove (w : EngineIn) (fall : Bool) (s s' : FrameFetch) : Prop where
  | keep (rd : s'.frRd = (s.frRd && !w.ioAck)) (act : s'.frAct = s.frAct)
      (fst : s'.frAct = true → s'.fst = .wait)
  | start (grant : w.grant = true) (before : s.frAct = false) (rd : s'.frRd = true)
      (act : s'.frAct = true) (fst : s'.fst = .wait)
  | finish (falls : fall = true) (rd : s'.frRd = (s.frRd && !w.ioAck)) (act : s'.frAct = false)

theorem setValid_channel (s : FrameFetch) (h v : Bool) :
    (s.setValid h v).frRd = s.frRd ∧ (s.setValid h v).frAct = s.frAct ∧
      (s.setValid h v).fst = s.fst := by
  unfold FrameFetch.setValid
  split <;> exact ⟨rfl, rfl, rfl⟩

theorem retire_channel (m : Main) (smp : Sampler) (s : FrameFetch) :
    (s.retire m smp).frRd = s.frRd ∧ (s.retire m smp).frAct = s.frAct ∧
      (s.retire m smp).fst = s.fst := by
  unfold FrameFetch.retire
  split
  · exact ⟨rfl, rfl, rfl⟩
  · split
    · exact setValid_channel s _ _
    · exact ⟨rfl, rfl, rfl⟩

theorem frameMove {s : FrameFetch} {m : Main} (smp : Sampler) (fall : Bool) (rst : w.rst = false)
    (rdAct : s.frRd = true → s.frAct = true) (act : s.frAct = true → s.fst = .wait) :
    FrameMove w fall s (s.next w m smp fall) := by
  obtain ⟨rd₁, act₁, fst₁⟩ := retire_channel m smp s
  have idleRd : s.fst ≠ .wait → s.frAct = false ∧ s.frRd = false := by
    intro away
    have noAct : s.frAct = false := by
      by_contra on
      exact away (act (by simpa using on))
    refine ⟨noAct, ?_⟩
    by_contra on
    have := rdAct (by simpa using on)
    simp [noAct] at this
  unfold FrameFetch.next
  simp only [rst, Bool.false_eq_true, if_false]
  cases fst : s.fst with
  | idle =>
    obtain ⟨noAct, noRd⟩ := idleRd (by simp [fst])
    dsimp only
    split
    · exact .keep (by simp [rd₁, noRd]) act₁ (by simp [act₁, noAct])
    · split
      · exact .keep (by simp [rd₁, noRd]) act₁ (by simp [act₁, noAct])
      · exact .keep (by simp [rd₁, noRd]) act₁ (by simp [act₁, noAct])
  | req =>
    obtain ⟨noAct, noRd⟩ := idleRd (by simp [fst])
    dsimp only
    split
    · exact .keep (by simp [rd₁, noRd]) act₁ (by simp [act₁, noAct])
    · split
      · rename_i go
        simp only [Bool.and_eq_true] at go
        exact .start go.1.1.1.1 noAct rfl rfl rfl
      · exact .keep (by simp [rd₁, noRd]) act₁ (by simp [act₁, noAct])
  | wait =>
    dsimp only
    split
    · rename_i falls
      simp only [Bool.and_eq_true] at falls
      exact .finish falls.1 (setValid_channel _ _ _).1 rfl
    · exact .keep rfl act₁ fun _ => fst₁.trans fst

/-- Ownership is kept by every clock whose grants respect the acknowledge. -/
theorem Owning.step (own : Owning e) (grant : w.grant = true → w.ioAck = false) :
    Owning (e.step w) := by
  cases rst : w.rst with
  | true =>
    have main : (e.step w).main = Main.reset e.main := by
      simp [Engine.step, Main.next, mainIn, rst]
    have ff : (e.step w).ff = {} := by simp [Engine.step, FrameFetch.next, rst]
    constructor <;> simp [main, ff, Main.reset]
  | false =>
    have toc := tocMove (w := mainIn w e) (s := e.main) rst own.tocRd own.tocAct
    have fr := frameMove (w := w) (s := e.ff) (m := e.main) e.smp (ackFall w e) rst
      own.frRd own.frAct
    have main : (e.step w).main = e.main.next (mainIn w e) := rfl
    have ff : (e.step w).ff = e.ff.next w e.main e.smp (ackFall w e) := rfl
    have ack : (mainIn w e).ioAck = w.ioAck := rfl
    have old : (e.step w).oldAck = w.ioAck := rfl
    have granted : (mainIn w e).grant = w.grant := rfl
    -- a finished transfer had its request taken back before
    have taken : ackFall w e = true → e.main.blob.tocRd = false ∧ e.ff.frRd = false := by
      intro fall
      simp only [ackFall, Bool.and_eq_true] at fall
      exact own.seen fall.1
    constructor
    · rw [main]
      intro rd
      cases toc with
      | keep rd' act' =>
        rw [act']
        apply own.tocRd
        rw [rd'] at rd
        simp at rd
        exact rd.1
      | start _ _ _ _ act' => exact act'
      | finish fall rd' =>
        rw [rd', (taken fall).1] at rd
        simp at rd
    · rw [main]
      intro act
      cases toc with
      | keep _ _ mst' => exact mst' act
      | start _ _ _ _ _ mst' => exact mst'
      | finish _ _ act' => simp [act'] at act
    · rw [ff]
      intro rd
      cases fr with
      | keep rd' act' =>
        rw [act']
        apply own.frRd
        rw [rd'] at rd
        simp at rd
        exact rd.1
      | start _ _ _ act' => exact act'
      | finish falls rd' =>
        rw [rd', (taken falls).2] at rd
        simp at rd
    · rw [ff]
      intro act
      cases fr with
      | keep _ _ fst' => exact fst' act
      | start _ _ _ _ fst' => exact fst'
      | finish _ _ act' => simp [act'] at act
    · rw [main, ff, old]
      intro seen
      constructor
      · cases toc with
        | keep rd' => simp [rd', ack, seen]
        | start go => simp [grant (granted ▸ go)] at seen
        | finish _ rd' => simp [rd', ack, seen]
      · cases fr with
        | keep rd' => simp [rd', seen]
        | start go => simp [grant go] at seen
        | finish _ rd' => simp [rd', seen]

/-- A request stays up until the acknowledge is seen. -/
theorem Owning.request_held (own : Owning e) (rst : w.rst = false) (ack : w.ioAck = false)
    (rd : e.ioRd = true) : (e.step w).ioRd = true := by
  have toc := tocMove (w := mainIn w e) (s := e.main) rst own.tocRd own.tocAct
  have fr := frameMove (w := w) (s := e.ff) (m := e.main) e.smp (ackFall w e) rst
    own.frRd own.frAct
  have main : (e.step w).main = e.main.next (mainIn w e) := rfl
  have ff : (e.step w).ff = e.ff.next w e.main e.smp (ackFall w e) := rfl
  have low : (mainIn w e).ioAck = false := ack
  simp only [ioRd, Bool.or_eq_true] at rd
  simp only [ioRd, main, ff, Bool.or_eq_true]
  rcases rd with up | up
  · left
    cases toc with
    | keep rd' => simp [rd', up, low]
    | start _ _ _ rd' => exact rd'
    | finish _ rd' => simp [rd', up, low]
  · right
    cases fr with
    | keep rd' => simp [rd', up, ack]
    | start _ _ rd' => exact rd'
    | finish _ rd' => simp [rd', up, ack]

/-- The channel is taken with a grant only. -/
theorem Owning.taken (own : Owning e) (rst : w.rst = false) (before : e.ioActive = false)
    (after : (e.step w).ioActive = true) : w.grant = true := by
  have toc := tocMove (w := mainIn w e) (s := e.main) rst own.tocRd own.tocAct
  have fr := frameMove (w := w) (s := e.ff) (m := e.main) e.smp (ackFall w e) rst
    own.frRd own.frAct
  simp only [ioActive, Bool.or_eq_false_iff] at before
  have main : (e.step w).main = e.main.next (mainIn w e) := rfl
  have ff : (e.step w).ff = e.ff.next w e.main e.smp (ackFall w e) := rfl
  simp only [ioActive, main, ff, Bool.or_eq_true] at after
  rcases after with act | act
  · cases toc with
    | keep _ act' => rw [act', before.1] at act; simp at act
    | start go => exact go
    | finish _ _ act' => simp [act'] at act
  · cases fr with
    | keep _ act' => rw [act', before.2] at act; simp at act
    | start go => exact go
    | finish _ _ act' => simp [act'] at act

/-- The channel is given back at the fall of the acknowledge only. -/
theorem Owning.held (own : Owning e) (rst : w.rst = false) (before : e.ioActive = true)
    (noFall : ackFall w e = false) : (e.step w).ioActive = true := by
  have toc := tocMove (w := mainIn w e) (s := e.main) rst own.tocRd own.tocAct
  have fr := frameMove (w := w) (s := e.ff) (m := e.main) e.smp (ackFall w e) rst
    own.frRd own.frAct
  have main : (e.step w).main = e.main.next (mainIn w e) := rfl
  have ff : (e.step w).ff = e.ff.next w e.main e.smp (ackFall w e) := rfl
  simp only [ioActive, Bool.or_eq_true] at before
  simp only [ioActive, main, ff, Bool.or_eq_true]
  rcases before with act | act
  · left
    cases toc with
    | keep _ act' => rw [act', act]
    | start _ _ _ _ act' => exact act'
    | finish fall =>
      have : (mainIn w e).ackFall = ackFall w e := rfl
      rw [this, noFall] at fall
      simp at fall
  · right
    cases fr with
    | keep _ act' => rw [act', act]
    | start _ _ _ act' => exact act'
    | finish falls => simp [noFall] at falls

end Engine

end CdAudio

end MacIIvi
