import Mathlib.Algebra.BigOperators.Group.Finset.Piecewise
import Mathlib.Algebra.Order.BigOperators.Group.Finset
import Starfish.Quic.Connection.RecvLevels

/-!
# Receive credit

Over whole runs, the limits advertised for the connection and for each stream never decrease,
the last one is the limit that is enforced, and a peer that keeps to the last limits is never
told that it has exceeded them. What the peer has used of a limit is read off the STREAM frames
of the trace: on a stream the highest offset, on the connection the sum of these. The
connection is charged with at most that, also for streams that have been collected and for
frames that were refused.
-/

namespace Starfish.Quic

/-! ## What the trace says -/

section

variable {ρ : Type*}

def StreamLifeEvent.streamFrame : StreamLifeEvent → Option StreamFrame
  | .frame (.stream f) => some f
  | _ => none

def offered (tr : List (StreamLifeEvent × ρ)) : List StreamFrame :=
  tr.filterMap (·.1.streamFrame)

end

def highestOffset (sid : Nat) (frames : List StreamFrame) : Nat :=
  frames.foldl (fun m f => if f.streamId = sid then max m (f.offset + f.data.length) else m) 0

def usedBy (frames : List StreamFrame) : Level → Nat
  | .connection => ∑ sid ∈ (frames.map (·.streamId)).toFinset, highestOffset sid frames
  | .stream sid => highestOffset sid frames

abbrev AdvertisingTrace := List (StreamLifeEvent × TransportResponse × List Frame)

def limitsOf (lvl : Level) (tr : AdvertisingTrace) : List Nat :=
  limitsFor lvl (tr.flatMap fun x => x.2.2)

def advertised (initial : Level → Nat) (lvl : Level) (tr : AdvertisingTrace) : List Nat :=
  initial lvl :: limitsOf lvl tr

def lastLimit (initial : Level → Nat) (lvl : Level) (tr : AdvertisingTrace) : Nat :=
  (limitsOf lvl tr).getLastD (initial lvl)

def StreamLife.advertisingStep (s : StreamLife) (e : StreamLifeEvent) :
    Option ((TransportResponse × List Frame) × StreamLife) :=
  (s.step e).map fun next => ((next.1, s.generated next.2 e), next.2)

theorem StreamLife.advertisingStep_eq_some {s s' : StreamLife} {e : StreamLifeEvent}
    {r : TransportResponse} {frames : List Frame}
    (h : s.advertisingStep e = some ((r, frames), s')) :
    s.step e = some (r, s') ∧ frames = s.generated s' e := by
  obtain ⟨next, hnext, heq⟩ := Option.map_eq_some_iff.mp h
  cases heq
  exact ⟨hnext, rfl⟩

theorem highestOffset_concat (sid : Nat) (frames : List StreamFrame) (f : StreamFrame) :
    highestOffset sid (frames ++ [f]) = if f.streamId = sid then
      max (highestOffset sid frames) (f.offset + f.data.length) else highestOffset sid frames := by
  unfold highestOffset
  rw [List.foldl_append]
  rfl

theorem le_highestOffset_concat (sid : Nat) (frames : List StreamFrame) (f : StreamFrame) :
    highestOffset sid frames ≤ highestOffset sid (frames ++ [f]) := by
  rw [highestOffset_concat]
  grind

variable {sid : Nat}

theorem highestOffset_of_not_mem {frames : List StreamFrame} (h : sid ∉ frames.map (·.streamId)) :
    highestOffset sid frames = 0 := by
  induction frames using List.reverseRecOn with
  | nil => rfl
  | append_singleton frames f ih =>
    rw [List.map_append, List.mem_append, not_or] at h
    rw [highestOffset_concat, ih h.1, if_neg fun heq => h.2 (by simp [heq])]

theorem limitsOf_concat (lvl : Level) (tr : AdvertisingTrace) (e : StreamLifeEvent)
    (r : TransportResponse) (frames : List Frame) :
    limitsOf lvl (tr ++ [(e, r, frames)]) = limitsOf lvl tr ++ limitsFor lvl frames := by
  simp [limitsOf, limitsFor]

/-! ## Limits -/

structure LimitBooks (initial : Level → Nat) (tr : AdvertisingTrace) (c : Credit) : Prop where
  ascending : ∀ lvl, (advertised initial lvl tr).Pairwise (· ≤ ·)
  enforced : ∀ lvl fc, c.level lvl = some fc → fc.recvMax = lastLimit initial lvl tr
  unused : ∀ sid, ¬ c.used sid → limitsOf (.stream sid) tr = []

theorem FlowControl.shouldSendMax_le {fc : FlowControl} {newMax : Nat}
    (h : fc.shouldSendMax = some newMax) : fc.recvMax ≤ newMax := by
  grind [FlowControl.shouldSendMax]

variable (fc : FlowControl)

theorem FlowControl.le_updateFromBlocked (n : Nat) :
    fc.recvMax ≤ (fc.updateFromBlocked n).2.recvMax := by
  unfold FlowControl.updateFromBlocked
  grind

/-- A move advertises nothing and keeps the limit, or advertises the limit that is then
enforced, which is not below the old one. -/
theorem FlowControl.Moves.limit {checked : Prop} {fc fc' : FlowControl} {hint : Option Nat} {limits : List Nat}
    (h : fc.Moves checked hint limits fc') :
    limits = [] ∧ fc'.recvMax = fc.recvMax ∨ limits = [fc'.recvMax] ∧ fc.recvMax ≤ fc'.recvMax := by
  cases h with
  | quiet hquiet => exact .inl ⟨rfl, hquiet.recvMax⟩
  | update hmax => exact .inr ⟨rfl, shouldSendMax_le hmax⟩
  | blocked n => exact .inr ⟨rfl, fc.le_updateFromBlocked n⟩

section

variable {initial : Level → Nat} {lvl : Level} {tr : AdvertisingTrace} {e : StreamLifeEvent}
  {r : TransportResponse} {frames : List Frame}

theorem le_lastLimit (h : (advertised initial lvl tr).Pairwise (· ≤ ·)) :
    ∀ n ∈ advertised initial lvl tr, n ≤ lastLimit initial lvl tr := by
  unfold advertised lastLimit at *
  generalize limitsOf lvl tr = limits at h ⊢
  induction limits using List.reverseRecOn with
  | nil => simp
  | append_singleton limits last _ =>
    intro n hn
    rw [← List.cons_append, List.pairwise_append] at h
    rw [List.getLastD_concat]
    rw [← List.cons_append, List.mem_append, List.mem_singleton] at hn
    rcases hn with hold | rfl
    · exact h.2.2 n hold last (List.mem_singleton.mpr rfl)
    · exact Nat.le_refl _

theorem advertised_concat_nil (h : limitsFor lvl frames = []) :
    advertised initial lvl (tr ++ [(e, r, frames)]) = advertised initial lvl tr := by
  rw [advertised, limitsOf_concat, h, List.append_nil, advertised]

theorem lastLimit_concat_nil (h : limitsFor lvl frames = []) :
    lastLimit initial lvl (tr ++ [(e, r, frames)]) = lastLimit initial lvl tr := by
  rw [lastLimit, limitsOf_concat, h, List.append_nil, lastLimit]

theorem lastLimit_concat_singleton {n : Nat} (h : limitsFor lvl frames = [n]) :
    lastLimit initial lvl (tr ++ [(e, r, frames)]) = n := by
  rw [lastLimit, limitsOf_concat, h, List.getLastD_concat]

theorem ascending_concat_singleton {n : Nat} (h : limitsFor lvl frames = [n])
    (hold : (advertised initial lvl tr).Pairwise (· ≤ ·)) (hn : lastLimit initial lvl tr ≤ n) :
    (advertised initial lvl (tr ++ [(e, r, frames)])).Pairwise (· ≤ ·) := by
  rw [advertised, limitsOf_concat, h, ← List.cons_append, List.pairwise_append]
  refine ⟨hold, List.pairwise_singleton _ _, fun a ha b hb => ?_⟩
  rw [List.mem_singleton.mp hb]
  exact Nat.le_trans (le_lastLimit hold a ha) hn

theorem LevelStep.advertised {checked fresh : Prop} {hint : Option Nat}
    {before after : Option FlowControl}
    (h : LevelStep checked (initial lvl) fresh hint (limitsFor lvl frames) before after)
    (hascending : (advertised initial lvl tr).Pairwise (· ≤ ·))
    (henforced : ∀ fc, before = some fc → fc.recvMax = lastLimit initial lvl tr)
    (hfresh : fresh → limitsOf lvl tr = []) :
    (advertised initial lvl (tr ++ [(e, r, frames)])).Pairwise (· ≤ ·) ∧
      ∀ fc, after = some fc → fc.recvMax = lastLimit initial lvl (tr ++ [(e, r, frames)]) := by
  cases h with
  | moves hmoves =>
    next fc fc' =>
    have hlast := henforced fc rfl
    rcases hmoves.limit with ⟨hnil, hsame⟩ | ⟨hone, hle⟩
    · rw [advertised_concat_nil hnil, lastLimit_concat_nil hnil]
      refine ⟨hascending, fun _ heq => ?_⟩
      cases heq
      exact hsame.trans hlast
    · refine ⟨ascending_concat_singleton hone hascending (hlast ▸ hle), fun _ heq => ?_⟩
      cases heq
      exact (lastLimit_concat_singleton hone).symm
  | opened hnew hnil hmax =>
    grind [advertised_concat_nil, lastLimit_concat_nil, lastLimit]
  | absent hnil | collected _ hnil =>
    grind [advertised_concat_nil]

end

namespace LimitBooks

variable {initial : Level → Nat} {tr : AdvertisingTrace} {c c' : Credit}

theorem fresh (h : LimitBooks initial tr c) {lvl : Level} (hfresh : c.Freshly c' lvl) :
    limitsOf lvl tr = [] := by
  cases lvl with
  | connection => exact hfresh.elim
  | stream sid => exact h.unused sid hfresh.1

theorem step {checked : Prop} {hint : Level → Option Nat} {e : StreamLifeEvent} {r : TransportResponse}
    {frames : List Frame} (h : LimitBooks initial tr c)
    (haccount : ∀ sid a, c.account sid = some a → c.used sid)
    (hused : ∀ sid, c.used sid → c'.used sid)
    (hsteps : ∀ lvl, LevelStep checked (initial lvl) (c.Freshly c' lvl) (hint lvl)
      (limitsFor lvl frames) (c.level lvl) (c'.level lvl)) : LimitBooks initial (tr ++ [(e, r, frames)]) c' where
  ascending := fun lvl => ((hsteps lvl).advertised (h.ascending lvl) (h.enforced lvl) h.fresh).1
  enforced := fun lvl => ((hsteps lvl).advertised (h.ascending lvl) (h.enforced lvl) h.fresh).2
  unused := fun sid hunused => by
    have hbefore : ¬ c.used sid := fun hu => hunused (hused sid hu)
    have hnone : c.level (.stream sid) = none := by
      cases hacc : c.account sid with
      | none => rw [Credit.level, hacc, Option.bind_none]
      | some a => exact absurd (haccount sid a hacc) hbefore
    have hnil : limitsFor (.stream sid) frames = [] := by
      have hstep := hsteps (.stream sid)
      rw [hnone] at hstep
      generalize c'.level (.stream sid) = after at hstep
      cases hstep with
      | opened _ hnil => exact hnil
      | absent hnil => exact hnil
    rw [limitsOf_concat, hnil, List.append_nil]
    exact h.unused sid hbefore

theorem opens {initialMaxData initialMaxStreamData : Nat}
    (h : LimitBooks (initialLimit initialMaxData initialMaxStreamData) tr c)
    (haccount : ∀ sid a, c.account sid = some a → c.used sid)
    (hnew : c.NewLevels initialMaxStreamData) (hopens : c.Opens c') {lvl : Level} {fc : FlowControl}
    (hlevel : c'.level lvl = some fc) :
    fc.recvMax = lastLimit (initialLimit initialMaxData initialMaxStreamData) lvl tr := by
  have hquiet : c'.QuietStep True c' := .refl c'
  have hstep := hopens.levelStep initialMaxData haccount hnew hquiet rfl lvl
  have hfresh : c.Freshly c' lvl → limitsOf lvl tr = [] := h.fresh
  have henforced := h.enforced lvl
  rw [hlevel] at hstep
  generalize c.level lvl = before at hstep henforced
  cases hstep with
  | moves hmoves =>
    cases hmoves with
    | quiet hquiet => exact hquiet.recvMax.trans (henforced _ rfl)
  | opened hnow _ hmax =>
    rw [hmax, lastLimit, hfresh hnow]
    rfl

end LimitBooks

/-! ## Charges -/

theorem FlowControl.updateFromBlocked_received (n : Nat) :
    (fc.updateFromBlocked n).2.received = fc.received := by
  grind [FlowControl.updateFromBlocked]

theorem FlowControl.extend_received : fc.extend.received = fc.received := by
  unfold FlowControl.extend
  split <;> rfl

theorem Account.extend_received (a : Account) :
    a.extend.flowControl.received = a.flowControl.received := by
  unfold Account.extend
  split
  · exact a.flowControl.extend_received
  · rfl

structure Charges (frames : List StreamFrame) (c : Credit) (charged : Nat → Nat) : Prop where
  used : ∀ sid a, c.account sid = some a → c.used sid
  live : ∀ sid a, c.account sid = some a → a.flowControl.received = charged sid
  within : ∀ sid, charged sid ≤ highestOffset sid frames
  unused : ∀ sid, ¬ c.used sid → charged sid = 0
  newAccount : ∀ sid, (c.newAccount sid).flowControl.received = 0
  total : c.connection.received = ∑ sid ∈ (frames.map (·.streamId)).toFinset, charged sid

namespace Charges

variable {frames : List StreamFrame} {c c' : Credit} {charged : Nat → Nat}

variable (h : Charges frames c charged)

include h in
theorem received_le {lvl : Level} {fc : FlowControl}
    (hlevel : c.level lvl = some fc) : fc.received ≤ usedBy frames lvl := by
  cases lvl with
  | connection =>
    cases hlevel
    rw [h.total]
    exact Finset.sum_le_sum fun sid _ => h.within sid
  | stream sid =>
    obtain ⟨a, ha, hreceives⟩ := Option.bind_eq_some_iff.mp hlevel
    split at hreceives
    · cases hreceives
      rw [h.live sid a ha]
      exact h.within sid
    · cases hreceives

include h in
theorem opens (hopens : c.Opens c') : Charges frames c' charged where
  used := fun sid a ha => by
    grind [cases Credit.Opens, cases Charges]
  live := fun sid a ha => by
    grind [cases Credit.Opens, cases Charges]
  within := h.within
  unused := fun sid hunused => h.unused sid fun hused => hunused (hopens.used sid hused)
  newAccount := by rw [hopens.newAccount]; exact h.newAccount
  total := by rw [hopens.connection, h.total]

include h in
theorem more (f : StreamFrame) : Charges (frames ++ [f]) c charged where
  used := h.used
  live := h.live
  within := fun sid => Nat.le_trans (h.within sid) (le_highestOffset_concat sid frames f)
  unused := h.unused
  newAccount := h.newAccount
  total := by
    rw [h.total]
    apply Finset.sum_subset
    · intro sid hsid
      rw [List.mem_toFinset] at hsid ⊢
      rw [List.map_append]
      exact List.mem_append_left _ hsid
    · intro sid _ hnot
      rw [List.mem_toFinset] at hnot
      exact Nat.le_zero.mp (highestOffset_of_not_mem hnot ▸ h.within sid)

include h in
theorem keep (hused : c'.used = c.used) (hconn : c'.connection.received = c.connection.received)
    (haccount : ∀ sid a', c'.account sid = some a' →
      ∃ a, c.account sid = some a ∧ a'.flowControl.received = a.flowControl.received)
    (hnew : ∀ sid, (c'.newAccount sid).flowControl.received = 0) : Charges frames c' charged where
  used := fun sid a' ha' => by
    grind [cases Charges]
  live := fun sid a' ha' => by
    grind [cases Charges]
  within := h.within
  unused := fun sid hunused => h.unused sid (hused ▸ hunused)
  newAccount := hnew
  total := hconn.trans h.total

include h in
theorem setAccount {a : Account} (a' : Account)
    (ha : c.account sid = some a) (hreceived : a'.flowControl.received = a.flowControl.received) :
    Charges frames (c.setAccount sid a') charged := by
  refine h.keep rfl rfl (fun j b hb => ?_) h.newAccount
  grind [Credit.setAccount_account]

include h in
theorem mapAccounts {g : Nat → Account → Account}
    {connection : ConnectionFlowControl} (hconn : connection.received = c.connection.received)
    (hg : ∀ sid a, (g sid a).flowControl.received = a.flowControl.received) :
    Charges frames { c with
      connection := connection, account := fun sid => (c.account sid).map (g sid) } charged := by
  refine h.keep rfl hconn (fun sid b hb => ?_) h.newAccount
  obtain ⟨a, ha, rfl⟩ := Option.map_eq_some_iff.mp hb
  exact ⟨a, ha, hg sid a⟩

include h in
theorem receive {f : StreamFrame} {a : Account} (ha : c.account f.streamId = some a) :
    Charges (frames ++ [f]) (c.receive f.streamId a f.offset f.data.length)
      (Function.update charged f.streamId
        (max (charged f.streamId) (f.offset + f.data.length))) := by
  have hmore := h.more f
  have hlive := h.live _ a ha
  have hdelta := StreamFlowControl.onDataReceived_delta a.flowControl f.offset f.data.length
  rw [StreamFlowControl.onDataReceived_received, hlive] at hdelta
  refine ⟨fun sid b hb => ?_, fun sid b hb => ?_, fun sid => ?_, fun sid hunused => ?_,
    h.newAccount, ?_⟩
  · dsimp only [Credit.receive] at hb
    rw [Credit.setAccount_account] at hb
    split at hb
    · next hsid =>
      rw [hsid]
      exact h.used _ a ha
    · exact h.used sid b hb
  · dsimp only [Credit.receive] at hb
    rw [Credit.setAccount_account] at hb
    rw [Function.update_apply]
    split at hb
    · next hsid =>
      cases hb
      rw [if_pos hsid, ← hlive]
      exact StreamFlowControl.onDataReceived_received _ _ _
    · next hsid =>
      rw [if_neg hsid]
      exact h.live sid b hb
  · have hwithin := h.within sid
    rw [Function.update_apply, highestOffset_concat]
    grind
  · have hne : sid ≠ f.streamId := by
      intro heq
      rw [heq] at hunused
      exact hunused (h.used _ a ha)
    rw [Function.update_of_ne hne]
    exact h.unused sid hunused
  · have hmem : f.streamId ∈ ((frames ++ [f]).map (·.streamId)).toFinset := by simp
    grind [cases Charges, Finset.sum_eq_sum_sdiff_singleton_add, Finset.sum_update_of_mem,
      Credit.receive, ConnectionFlowControl.onDataReceived]

variable {ρ : Type*} {tr : List (StreamLifeEvent × ρ)}

theorem silent {e : StreamLifeEvent} (x : ρ) (h : Charges (offered tr) c charged) :
    Charges (offered (tr ++ [(e, x)])) c charged := by
  unfold offered at h ⊢
  rw [List.filterMap_append, List.filterMap_cons, List.filterMap_nil]
  cases e.streamFrame with
  | none =>
    rw [List.append_nil]
    exact h
  | some f => exact h.more f

theorem step {e : StreamLifeEvent} {r : TransportResponse} (x : ρ)
    (h : Charges (offered tr) c charged) (hstep : c.Step e r c') :
    ∃ charged', Charges (offered (tr ++ [(e, x)])) c' charged' := by
  have hnext := h.silent (e := e) x
  cases hstep with
  | idle => exact ⟨_, hnext⟩
  | send ha =>
    next sid _ _ a len _ =>
    have hset := hnext.setAccount (a.send len) ha rfl
    exact ⟨_, hset.keep rfl rfl (fun _ a' ha' => ⟨a', ha', rfl⟩) hset.newAccount⟩
  | maxData =>
    refine ⟨_, hnext.keep rfl ?_ (fun _ a' ha' => ⟨a', ha', rfl⟩) hnext.newAccount⟩
    dsimp only [FlowControl.updateSendMax]
    split <;> rfl
  | maxStreamData ha =>
    refine ⟨_, hnext.setAccount _ ha ?_⟩
    dsimp only [Account.change, FlowControl.updateSendMax]
    split <;> rfl
  | peerLimits =>
    refine ⟨_, hnext.keep rfl rfl (fun sid b hb => ?_) hnext.newAccount⟩
    obtain ⟨a, ha, rfl⟩ := Option.map_eq_some_iff.mp hb
    exact ⟨a, ha, rfl⟩
  | receive ha hchecked =>
    next f a =>
    have hframe : offered (tr ++ [(.frame (.stream f), x)]) = offered tr ++ [f] :=
      List.filterMap_append
    rw [hframe]
    exact ⟨_, h.receive ha⟩
  | extend =>
    exact ⟨_, hnext.mapAccounts c.connection.extend_received fun _ a => a.extend_received⟩
  | dataBlocked =>
    next n =>
    exact ⟨_, hnext.keep rfl (c.connection.updateFromBlocked_received n)
      (fun _ a' ha' => ⟨a', ha', rfl⟩) hnext.newAccount⟩
  | streamDataBlocked ha hreceives =>
    next sid n a =>
    exact ⟨_, hnext.setAccount _ ha (a.flowControl.updateFromBlocked_received n)⟩

end Charges

/-! ## Whole runs -/

/-- Receive credit in a state: the limits advertised so far never decrease and end in the one
that is enforced, a limit that is advertised next is enforced from then on, and data within the
last limits is not refused for exceeding them. -/
structure RecvCredit (initial : Level → Nat) (tr : AdvertisingTrace) (s : StreamLife) : Prop where
  never_decreases : ∀ lvl, (advertised initial lvl tr).Pairwise (· ≤ ·)
  enforced : ∀ lvl fc, s.transport.level lvl = some fc → fc.recvMax = lastLimit initial lvl tr
  announced : ∀ e r frames s', s.advertisingStep e = some ((r, frames), s') →
    ∀ lvl, ∀ n ∈ limitsFor lvl frames, ∃ fc, s'.transport.level lvl = some fc ∧ fc.recvMax = n
  accepts : ∀ f r frames s', s.advertisingStep (.frame (.stream f)) = some ((r, frames), s') →
    (∀ lvl ∈ [Level.connection, .stream f.streamId],
      usedBy (offered tr ++ [f]) lvl ≤ lastLimit initial lvl tr) → r.overLimit = false

structure RecvBooks (initialMaxData initialMaxStreamData : Nat) (tr : AdvertisingTrace)
    (s : StreamLife) : Prop where
  sound : s.Sound
  newLevels : s.transport.credit.NewLevels initialMaxStreamData
  limits : LimitBooks (initialLimit initialMaxData initialMaxStreamData) tr s.transport.credit
  charges : ∃ charged, Charges (offered tr) s.transport.credit charged

namespace RecvBooks

variable {initialMaxData initialMaxStreamData : Nat} {tr : AdvertisingTrace} {s s' : StreamLife}
  {e : StreamLifeEvent} {r : TransportResponse}

theorem newLevels_new (side : Side) (maxBidi maxUni initialMaxStreamData initialMaxData : Nat) :
    (StreamLife.new side maxBidi maxUni initialMaxStreamData
      initialMaxData).transport.credit.NewLevels initialMaxStreamData := by
  intro sid
  dsimp only [Transport.credit, StreamLife.new, Transport.new, StreamManager.newStream,
    StreamState.account, StreamState.new, StreamManager.initialLimitsForStream]
  cases streamDirection sid <;>
    cases (StreamManager.new side maxBidi maxUni initialMaxStreamData).isLocalInitiated sid
  case unidirectional.true =>
    intro hreceives
    cases hreceives
  all_goals exact fun _ => ⟨rfl, rfl, rfl⟩

theorem new (side : Side) {maxBidi maxUni : Nat} (initialMaxStreamData initialMaxData : Nat)
    (hbidi : maxBidi ≤ u64Max) (huni : maxUni ≤ u64Max) :
    RecvBooks initialMaxData initialMaxStreamData []
      (StreamLife.new side maxBidi maxUni initialMaxStreamData initialMaxData) := by
  have hnone : ∀ sid a, (StreamLife.new side maxBidi maxUni initialMaxStreamData
      initialMaxData).transport.credit.account sid = some a → False := fun _ _ h => by cases h
  refine ⟨StreamLife.new_sound side initialMaxStreamData initialMaxData hbidi huni, ?_, ?_, ?_⟩
  · simp [newLevels_new]
  · refine ⟨fun _ => List.pairwise_singleton _ _, fun lvl fc hlevel => ?_, fun _ _ => rfl⟩
    cases lvl with
    | connection =>
      cases hlevel
      rfl
    | stream sid => cases hlevel
  · exact ⟨fun _ => 0, fun _ _ h => (hnone _ _ h).elim, fun _ _ h => (hnone _ _ h).elim,
      fun _ => Nat.zero_le _, fun _ _ => rfl, fun _ => rfl, rfl⟩

theorem step (h : RecvBooks initialMaxData initialMaxStreamData tr s)
    (hstep : s.step e = some (r, s')) :
    RecvBooks initialMaxData initialMaxStreamData (tr ++ [(e, r, s.generated s' e)]) s' := by
  have htabled := h.sound.tabled
  obtain ⟨c, hopens, hcredit⟩ := StreamLife.step_credit htabled hstep
  obtain ⟨charged, hcharges⟩ := h.charges
  refine ⟨h.sound.step hstep, (h.newLevels.opens hopens).step hcredit, ?_,
    (hcharges.opens hopens).step _ hcredit⟩
  apply h.limits.step (fun _ _ => StreamLife.used_of_account htabled)
  · intro sid hused
    rw [hcredit.used]
    exact hopens.used sid hused
  · intro lvl
    have hlevel := StreamLife.step_level initialMaxData htabled h.newLevels hstep lvl
    rw [← Transport.credit_level, ← Transport.credit_level] at hlevel
    exact hlevel

theorem checked (h : RecvBooks initialMaxData initialMaxStreamData tr s) {c : Credit}
    (hopens : s.transport.credit.Opens c) {f : StreamFrame} {a : Account}
    (ha : c.account f.streamId = some a) (hreceives : a.receives = true)
    (hwithin : ∀ lvl ∈ [Level.connection, .stream f.streamId], usedBy (offered tr ++ [f]) lvl ≤
      lastLimit (initialLimit initialMaxData initialMaxStreamData) lvl tr) :
    c.Checked a f.offset f.data.length := by
  obtain ⟨charged, hcharges⟩ := h.charges
  have hnext := (hcharges.opens hopens).receive ha
  have hlimit : ∀ {lvl : Level} {fc : FlowControl}, c.level lvl = some fc →
      fc.recvMax = lastLimit (initialLimit initialMaxData initialMaxStreamData) lvl tr :=
    h.limits.opens (fun _ _ => StreamLife.used_of_account h.sound.tabled) h.newLevels hopens
  have hstream : c.level (.stream f.streamId) = some a.flowControl := by
    rw [Credit.level, ha, Option.bind_some, if_pos hreceives]
  have hstream' : (c.receive f.streamId a f.offset f.data.length).level (.stream f.streamId) =
      some (StreamFlowControl.onDataReceived a.flowControl f.offset f.data.length).2 := by
    dsimp only [Credit.level, Credit.receive]
    rw [Credit.setAccount_account, if_pos rfl, Option.bind_some]
    exact if_pos hreceives
  have hquiet := StreamFlowControl.onDataReceived_quiet (a.flowControl) f.offset f.data.length
    False.elim
  constructor
  · refine decide_eq_true ?_
    rw [hquiet.recvMax, hlimit hstream]
    exact Nat.le_trans (hnext.received_le hstream') (hwithin _ (by simp))
  · refine decide_eq_true ?_
    have hconn : c.level .connection = some c.connection := rfl
    refine Nat.le_trans (hnext.received_le rfl) (Nat.le_trans (hwithin .connection (by simp)) ?_)
    exact Nat.le_of_eq (hlimit hconn).symm

end RecvBooks

theorem acceptNamed_error {t : Transport} {e : QuicError} (h : t.acceptNamed sid = .error e) :
    (TransportResponse.refused e).overLimit = false := by
  unfold Transport.acceptNamed at h
  split at h
  · split at h
    · next heq =>
      cases h
      unfold StreamManager.acceptStream at heq
      split at heq
      · cases heq
      split at heq
      · cases heq
        rfl
      dsimp only at heq
      split at heq
      · cases heq
        rfl
      split at heq
      · cases heq
        rfl
      split at heq
      · cases heq
        rfl
      split at heq <;> cases heq
    · cases h
  · cases h

theorem validateStreamFinalSize_error {finalSize : Nat} {st : StreamState} {e : QuicError}
    (h : validateStreamFinalSize sid st finalSize = .error e) :
    (TransportResponse.refused e).overLimit = false := by
  unfold validateStreamFinalSize at h
  split at h
  · cases h
    rfl
  split at h
  · cases h
    rfl
  · cases h

theorem receiveStreamFrame_not_overLimit {st : StreamState} {conn : ConnectionFlowControl}
    {f : StreamFrame} (h : st.recv.isSome = true →
      (StreamFlowControl.onDataReceived st.flowControl f.offset f.data.length).2.checkRecvLimit =
          true ∧
        (ConnectionFlowControl.onDataReceived conn (StreamFlowControl.onDataReceived st.flowControl
          f.offset f.data.length).1).checkRecvLimit = true) :
    (TransportResponse.ofResult (receiveStreamFrame st conn f).1).overLimit = false := by
  unfold receiveStreamFrame
  dsimp only
  split
  · rfl
  next hrecv =>
  obtain ⟨hstream, hconn⟩ := h (by simpa [Option.isSome_iff_ne_none] using hrecv)
  split
  · rfl
  split
  · rfl
  rw [hstream, hconn]
  simp only [Bool.not_true, Bool.false_eq_true, if_false]
  split
  · next e hsize =>
    split at hsize
    · exact validateStreamFinalSize_error hsize
    · cases hsize
  · rfl

namespace RecvBooks

variable {initialMaxData initialMaxStreamData : Nat} {tr : AdvertisingTrace} {s s' : StreamLife}
  {r : TransportResponse}

theorem accepts (h : RecvBooks initialMaxData initialMaxStreamData tr s) {f : StreamFrame}
    (hwithin : ∀ lvl ∈ [Level.connection, .stream f.streamId], usedBy (offered tr ++ [f]) lvl ≤
      lastLimit (initialLimit initialMaxData initialMaxStreamData) lvl tr) :
    (TransportResponse.ofResult (s.transport.processFrame (.stream f)).1).overLimit = false := by
  dsimp only [Transport.processFrame]
  unfold Transport.processStream
  split
  · next hacc => exact acceptNamed_error hacc
  · next t hacc =>
    split
    · rfl
    · next st hst =>
      apply receiveStreamFrame_not_overLimit
      intro hrecv
      exact h.checked (Transport.acceptNamed_opens hacc) (Transport.credit_account hst) hrecv hwithin

theorem announced {e : StreamLifeEvent} (h : RecvBooks initialMaxData initialMaxStreamData tr s)
    (hstep : s.step e = some (r, s')) {lvl : Level} {n : Nat}
    (hn : n ∈ limitsFor lvl (s.generated s' e)) :
    ∃ fc, s'.transport.level lvl = some fc ∧ fc.recvMax = n := by
  have hlevel := StreamLife.step_level initialMaxData h.sound.tabled h.newLevels hstep lvl
  generalize limitsFor lvl (s.generated s' e) = limits at hlevel hn
  generalize s.transport.level lvl = before at hlevel
  generalize s'.transport.level lvl = after at hlevel
  cases hlevel with
  | moves hmoves =>
    rcases hmoves.limit with ⟨rfl, -⟩ | ⟨rfl, -⟩
    all_goals grind
  | opened _ hnil | absent hnil => rw [hnil] at hn; cases hn
  | collected _ hnil => rw [hnil] at hn; cases hn

end RecvBooks

theorem StreamLife.step_frame_response {s s' : StreamLife} {frame : Frame} {r : TransportResponse}
    (h : s.step (.frame frame) = some (r, s')) :
    r = .ofResult (s.transport.processFrame frame).1 := by
  simp only [step] at h
  split at h <;> next heq =>
    cases h
    rw [heq]
    rfl

end Starfish.Quic
