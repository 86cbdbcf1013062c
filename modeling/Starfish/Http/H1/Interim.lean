import Starfish.Http.H1.Reuse

/-!
# Informational responses

When every response answers its own request although informational responses come before it.
Two of them that end in the same read are one too many: the rest of a read behind the first one
is fed to a new parser, and what completes there is returned without another look at its status.
-/

namespace Starfish.Http.H1

open Quic (Bytes)
open Incremental
open MessageParser

/-! ## Responses on the wire -/

def SendsFrom (head : Bool) (p : ResponseParser) (wire : Bytes) (response : Response) : Prop :=
  ∃ q, (answerMachine head).run p wire = .ok (wire.length, q) ∧ ended head q = true ∧
    (finished head q).takeResponse = .ok response

inductive Pending (head : Bool) (response : Response) : ResponseParser → List Bytes → Prop
  | final {p : ResponseParser} {wire : Bytes} (h : SendsFrom head p wire response) :
      Pending head response p [wire]
  | interim {p : ResponseParser} {wire : Bytes} {rest : List Bytes} {r : Response}
      (h : SendsFrom head p wire r) (hinterim : r.isInformational = true)
      (hrest : Pending head response ResponseParser.new rest) :
      Pending head response p (wire :: rest)

/-- Some read begins before the end of an informational response and contains the end of the next
one; the last one of `wires` is the final response. -/
def TwoInterimsInRead (reads wires : List Bytes) : Prop :=
  ∃ i j, i + 2 < wires.length ∧ j < reads.length ∧
    (reads.take j).flatten.length < (wires.take (i + 1)).flatten.length ∧
    (wires.take (i + 2)).flatten.length ≤ (reads.take (j + 1)).flatten.length

variable {p : ResponseParser} {r : Response} {wire : Bytes}

variable {head : Bool} {data first : Bytes} {stream : Reads} {conn : H1Connection}

theorem SendsFrom.ne_nil (h : SendsFrom head p wire r) (hopen : ended head p = false) :
    wire ≠ [] := by
  rintro rfl
  obtain ⟨q, hrun, hended, -⟩ := h
  cases hrun
  rw [hopen] at hended
  cases hended

theorem ended_new (head : Bool) : ended head ResponseParser.new = false := by
  cases head <;> rfl

variable {front back : Bytes}

theorem SendsFrom.split (h : SendsFrom head p (front ++ back) r) (hback : back ≠ []) :
    ∃ u, (answerMachine head).run p front = .ok (front.length, u) ∧ ended head u = false ∧
      SendsFrom head u back r := by
  obtain ⟨q, hrun, hended, hresponse⟩ := h
  have hlt : front.length < (front ++ back).length := by
    grind [List.length_pos_of_ne_nil]
  obtain ⟨u, hfront, hopen, hrest⟩ := Machine.run_of_append_lt _ hrun hlt
  rw [List.length_append, Nat.add_sub_cancel_left] at hrest
  exact ⟨u, hfront, hopen, q, hrest, hended, hresponse⟩

variable {response : Response}

theorem Pending.split {rest : List Bytes}
    (h : Pending head response p ((front ++ back) :: rest)) (hback : back ≠ []) :
    ∃ u, (answerMachine head).run p front = .ok (front.length, u) ∧ ended head u = false ∧
      Pending head response u (back :: rest) := by
  cases h with
  | final h =>
    obtain ⟨u, hrun, hopen, hsend⟩ := h.split hback
    exact ⟨u, hrun, hopen, .final hsend⟩
  | interim h hinterim hrest =>
    obtain ⟨u, hrun, hopen, hsend⟩ := h.split hback
    exact ⟨u, hrun, hopen, .interim hsend hinterim hrest⟩

/-! ## Responses without a body -/

def NoBodyComplete (p : ResponseParser) : Prop :=
  PastHead p → p.start.status.any ResponseParser.statusWithoutBody = true → p.state = .complete

variable {q : ResponseParser}

theorem determineBodyKind_noBody (h : ResponseParser.determineBodyKind p = .ok q) :
    NoBodyComplete q := by
  intro _ hstatus
  have hstart := (ResponseParser.tame.determine p q h).1.start
  rw [hstart] at hstatus
  rw [ResponseParser.determineBodyKind, if_pos hstatus] at h
  cases h
  rfl

theorem byte_noBody {b : UInt8} {e : Bool} (hp : ResponseOpen p) (hopen : p.state ≠ .complete)
    (hnobody : NoBodyComplete p) (h : byte ResponseParser.grammar p b = .ok (q, e)) :
    NoBodyComplete q := by
  have hchanges := byte_changes ResponseParser.tame hp h
  by_cases hpast : PastHead p
  · intro _ hstatus
    rw [(hchanges.start hpast.1).2] at hstatus
    exact absurd (hnobody hpast hstatus) hopen
  · by_cases hq : PastHead q
    · rw [byte] at h
      cases hstate : p.state with
      | headerLine =>
        simp only [hstate] at h
        rcases headerLineByte_kind h with ⟨-, hsame⟩ | ⟨r, hr⟩
        · exact absurd (hsame.trans hstate) hq.2
        · exact determineBodyKind_noBody hr
      | requestLine | statusLine =>
        grind [startLineByte_state, PastHead, PastStart]
      | _ => simp [PastHead, PastStart, hstate] at hpast
    · exact fun h => absurd h hq

theorem answerMachine_noBody {n : Nat}
    (hrun : (answerMachine head).run ResponseParser.new data = .ok (n, q)) : NoBodyComplete q := by
  have hnew : NoBodyComplete ResponseParser.new := fun h => absurd rfl h.1.2
  refine (answerMachine_keeps ?_ ResponseParser.new_ready hnew hrun).2
  intro r b t e hr hstate hnobody hbyte
  exact byte_noBody hr hstate hnobody hbyte

theorem takeResponse_status (h : p.takeResponse = .ok r) :
    p.start.status = some r.status := by
  unfold ResponseParser.takeResponse at h
  split at h
  · cases h
  · next status hstatus =>
    split at h
    · cases hb : buildHeaders "build response: " .empty p.headers with
      | error e =>
        rw [hb] at h
        cases h
      | ok headers =>
        rw [hb] at h
        cases h
        exact hstatus
    · cases h

variable {fed : Bytes}

theorem Reading.interim_complete (h : Reading head p fed)
    (hrun : (answerMachine head).run p wire = .ok (wire.length, q)) (hended : ended head q = true)
    (hresponse : (finished head q).takeResponse = .ok r) (hinterim : r.isInformational = true) :
    q.isComplete = true := by
  have happend := h.run_append wire
  rw [hrun, shift_ok] at happend
  have hstatus : q.start.status = some r.status := by
    rw [← (finished_head head q).1]
    exact takeResponse_status hresponse
  have hnobody : q.start.status.any ResponseParser.statusWithoutBody = true := by
    grind [Response.isInformational, ResponseParser.statusWithoutBody]
  rw [ended, Bool.or_eq_true, Bool.and_eq_true] at hended
  rcases hended with hcomplete | ⟨-, hhead⟩
  · exact hcomplete
  · exact beq_iff_eq.mpr
      (answerMachine_noBody happend ((isHeadComplete_iff q).mp hhead).2 hnobody)

/-! ## One read -/

theorem Reading.feed_part {u : ResponseParser} (h : Reading head p fed)
    (hrun : (answerMachine head).run p data = .ok (data.length, u)) (hopen : ended head u = false) :
    feedResponse head p data = some (.ok ((data.length, false), u)) ∧
      Reading head u (fed ++ data) := by
  constructor
  · rw [feedResponse_eq head h.ready, hrun]
    simp [hopen]
  · refine ⟨?_, hopen⟩
    rw [h.run_append, hrun, shift_ok, List.length_append]

theorem Reading.feed_exact (h : Reading head p fed) (hsend : SendsFrom head p wire r) :
    ∃ next, feedResponse head p wire = some (.ok ((wire.length, true), next)) ∧
      next.takeResponse = .ok r := by
  obtain ⟨q, hrun, hended, hresponse⟩ := hsend
  refine ⟨finished head q, ?_, hresponse⟩
  rw [feedResponse_eq head h.ready, hrun]
  simp [hended, Outcome.map]

theorem Reading.feed_interim (h : Reading head p fed)
    (hsend : SendsFrom head p wire r) (hinterim : r.isInformational = true) (rest : Bytes) :
    ∃ next, feedResponse head p (wire ++ rest) = some (.ok ((wire.length, true), next)) ∧
      next.takeResponse = .ok r := by
  obtain ⟨q, hrun, hended, hresponse⟩ := hsend
  have hcomplete := h.interim_complete hrun hended hresponse hinterim
  have happend : (answerMachine head).run p (wire ++ rest) = .ok (wire.length, q) := by
    rw [Machine.run_append, hrun, followed_ok, Machine.run_of_done _ hended, shift_ok,
      Nat.add_zero]
  refine ⟨finished head q, ?_, hresponse⟩
  rw [feedResponse_eq head h.ready, happend]
  simp only [hended, if_true, Machine.run_of_done responseMachine hcomplete, Outcome.map,
    Nat.add_zero]

/-! ## Reads with two ends -/

variable {wires reads : List Bytes}

theorem not_twoInterims_of_length (h : wires.length ≤ 2) :
    ¬TwoInterimsInRead reads wires := by
  rintro ⟨i, j, hi, -⟩
  omega

theorem take_cons_length (x : Bytes) (l : List Bytes) (i : Nat) :
    ((x :: l).take (i + 1)).flatten.length = x.length + (l.take i).flatten.length := by
  simp

theorem twoInterims_part (hback : back ≠ []) :
    TwoInterimsInRead (front :: reads) ((front ++ back) :: wires) ↔
      TwoInterimsInRead reads (back :: wires) := by
  have hpos := List.length_pos_of_ne_nil hback
  constructor
  · rintro ⟨i, j, hi, hj, hstart, hend⟩
    rw [List.length_cons] at hi hj
    rw [take_cons_length, List.length_append] at hstart
    rw [take_cons_length, take_cons_length, List.length_append] at hend
    cases j with
    | zero =>
      grind
    | succ j =>
      rw [take_cons_length] at hstart
      refine ⟨i, j, hi, by omega, ?_, ?_⟩ <;> rw [take_cons_length] <;> omega
  · rintro ⟨i, j, hi, hj, hstart, hend⟩
    rw [take_cons_length] at hstart hend
    refine ⟨i, j + 1, hi, Nat.succ_lt_succ hj, ?_, ?_⟩ <;>
      rw [take_cons_length, take_cons_length, List.length_append] <;> omega

theorem twoInterims_exact {read : Bytes} (hwires : ∀ wire ∈ wires, wire ≠ []) :
    TwoInterimsInRead (read :: reads) (read :: wires) ↔ TwoInterimsInRead reads wires := by
  constructor
  · rintro ⟨i, j, hi, hj, hstart, hend⟩
    rw [List.length_cons] at hi hj
    rw [take_cons_length] at hstart
    cases j with
    | zero =>
      -- the next response is not empty
      cases wires with
      | nil =>
        rw [List.length_nil] at hi
        omega
      | cons wire wires =>
        simp_all
    | succ j =>
      rw [take_cons_length] at hstart
      cases i with
      | zero =>
        grind
      | succ i =>
        refine ⟨i, j, by omega, by omega, by omega, ?_⟩
        grind
  · rintro ⟨i, j, hi, hj, hstart, hend⟩
    refine ⟨i + 1, j + 1, Nat.succ_lt_succ hi, Nat.succ_lt_succ hj, ?_, ?_⟩ <;>
      rw [take_cons_length, take_cons_length] <;> omega

theorem twoInterims_second (hback : back ≠ []) :
    TwoInterimsInRead ((first ++ front) :: reads) (first :: (front ++ back) :: wires) ↔
      TwoInterimsInRead reads (back :: wires) := by
  have hpos := List.length_pos_of_ne_nil hback
  constructor
  · rintro ⟨i, j, hi, hj, hstart, hend⟩
    simp only [List.length_cons] at hi hj
    rw [take_cons_length] at hstart
    rw [take_cons_length, take_cons_length, take_cons_length, List.length_append,
      List.length_append] at hend
    cases j with
    | zero =>
      grind
    | succ j =>
      rw [take_cons_length, List.length_append] at hstart
      cases i with
      | zero =>
        grind
      | succ i =>
        rw [take_cons_length, List.length_append] at hstart
        refine ⟨i, j, by rw [List.length_cons]; omega, by omega, ?_, ?_⟩ <;>
          rw [take_cons_length] <;> omega
  · rintro ⟨i, j, hi, hj, hstart, hend⟩
    rw [take_cons_length] at hstart hend
    refine ⟨i + 1, j + 1, Nat.succ_lt_succ hi, Nat.succ_lt_succ hj, ?_, ?_⟩ <;>
      rw [take_cons_length, take_cons_length, take_cons_length, List.length_append,
        List.length_append] <;> omega

theorem twoInterims_both {second surplus : Bytes} (hfirst : first ≠ []) (hwires : wires ≠ []) :
    TwoInterimsInRead ((first ++ (second ++ surplus)) :: reads) (first :: second :: wires) := by
  have hpos := List.length_pos_of_ne_nil hfirst
  have hlen := List.length_pos_of_ne_nil hwires
  refine ⟨0, 0, ?_, Nat.succ_pos _, ?_, ?_⟩
  all_goals grind

/-! ## All reads of an exchange -/

theorem Pending.wires_ne_nil (h : Pending head response ResponseParser.new wires) :
    ∀ wire ∈ wires, wire ≠ [] := by
  induction wires with
  | nil => nofun
  | cons first rest ih =>
    rw [List.forall_mem_cons]
    cases h with
    | final h => exact ⟨h.ne_nil (ended_new head), nofun⟩
    | interim h _ hrest => exact ⟨h.ne_nil (ended_new head), ih hrest⟩

theorem Pending.ne_nil (h : Pending head response p wires) : wires ≠ [] := by
  cases h <;> nofun

def Returns (x : Option (Outcome HttpError Answered) × Reads) (P : Response → Reads → Prop) :
    Prop :=
  ∃ answer rest r, x = (some (.ok answer), rest) ∧ answer.parser.takeResponse = .ok r ∧ P r rest

/-- The right response is returned when all reads are used up, or an informational one if two of
them end in one read. -/
structure Outcomes (reads wires : List Bytes) (response : Response) (stream : Reads)
    (r : Response) (rest : Reads) : Prop where
  two : TwoInterimsInRead reads wires → r.isInformational = true
  right : ¬TwoInterimsInRead reads wires → r = response ∧ rest = stream

theorem Returns.congr {x : Option (Outcome HttpError Answered) × Reads} {reads' wires' : List Bytes}
    (h : Returns x (Outcomes reads' wires' response stream))
    (hiff : TwoInterimsInRead reads wires ↔ TwoInterimsInRead reads' wires') :
    Returns x (Outcomes reads wires response stream) := by
  obtain ⟨answer, rest, r, hx, hr, htwo, hright⟩ := h
  exact ⟨answer, rest, r, hx, hr, fun h => htwo (hiff.mp h), fun h => hright (mt hiff.mpr h)⟩

theorem returns_final {answer : Answered}
    (hr : answer.parser.takeResponse = .ok response) (hlen : wires.length ≤ 2) :
    Returns (some (.ok answer), stream) (Outcomes reads wires response stream) :=
  ⟨answer, stream, response, rfl, hr, fun h => absurd h (not_twoInterims_of_length hlen),
    fun _ => ⟨rfl, rfl⟩⟩

theorem flatten_eq_nil (hne : ∀ r ∈ reads, r ≠ []) (h : reads.flatten = []) : reads = [] := by
  cases reads with
  | nil => rfl
  | cons read rest =>
    simp_all

theorem append_cases {a b c d : Bytes} (h : a ++ b = c ++ d) :
    (∃ e, e ≠ [] ∧ c = a ++ e ∧ b = e ++ d) ∨ ∃ e, a = c ++ e ∧ d = e ++ b := by
  rcases List.append_eq_append_iff.mp h with ⟨e, hc, hb⟩ | ⟨e, ha, hd⟩
  all_goals grind

theorem readResponse_pending (hfinal : response.isInformational = false)
    (stream : Reads) (hp : Reading head p fed) (hpending : Pending head response p wires)
    (hne : ∀ r ∈ reads, r ≠ []) (hflatten : reads.flatten = wires.flatten) :
    Returns (readResponse head (received reads ++ stream) p fed)
      (Outcomes reads wires response stream) := by
  induction reads generalizing p fed wires with
  | nil =>
    exfalso
    cases hpending with
    | final h => exact h.ne_nil hp.opened (by simpa using hflatten.symm)
    | interim h =>
      exact h.ne_nil hp.opened (List.append_eq_nil_iff.mp hflatten.symm).1
  | cons read reads ih =>
    obtain ⟨hread, hreads⟩ := List.forall_mem_cons.mp hne
    obtain ⟨first, rest, rfl⟩ := List.exists_cons_of_ne_nil hpending.ne_nil
    change Returns (readResponse head (.ok read :: (received reads ++ stream)) p fed) _
    rw [readResponse, if_neg hread]
    rcases append_cases hflatten with ⟨back, hback, rfl, hrest⟩ | ⟨behind, rfl, hrest⟩
    · -- the read ends within the response
      obtain ⟨u, hrun, hopen, hnext⟩ := hpending.split hback
      obtain ⟨hfeed, hreading⟩ := hp.feed_part hrun hopen
      simp only [hfeed]
      exact (ih hreading hnext hreads hrest).congr (twoInterims_part hback)
    · cases hpending with
      | final h =>
        -- the read ends with the final response
        obtain ⟨hbehind, hnone⟩ := List.append_eq_nil_iff.mp hrest.symm
        cases flatten_eq_nil hreads hnone
        subst hbehind
        obtain ⟨next, hfeed, hresponse⟩ := hp.feed_exact h
        simp only [List.append_nil, hfeed, hresponse, hfinal]
        exact returns_final hresponse (by simp)
      | interim h hinterim hpending =>
        obtain ⟨next, hfeed, hresponse⟩ := hp.feed_interim h hinterim behind
        simp only [hfeed, hresponse, hinterim, if_true, List.length_append, List.drop_left]
        by_cases hbehind : behind = []
        · -- the read ends with an informational response
          subst hbehind
          rw [if_neg (by simp)]
          rw [List.append_nil]
          exact (ih (reading_new head) hpending hreads hrest.symm).congr
            (twoInterims_exact hpending.wires_ne_nil)
        · have hpos := List.length_pos_of_ne_nil hbehind
          rw [if_pos (by omega)]
          obtain ⟨second, wires, rfl⟩ := List.exists_cons_of_ne_nil hpending.ne_nil
          rcases append_cases hrest.symm with ⟨back, hback, rfl, hlater⟩ | ⟨surplus, rfl, hlater⟩
          · -- it goes on into the next response
            obtain ⟨u, hrun, hopen, hnext⟩ := hpending.split hback
            obtain ⟨hfeed', hreading⟩ := (reading_new head).feed_part hrun hopen
            simp only [hfeed']
            exact (ih hreading hnext hreads hlater).congr (twoInterims_second hback)
          · cases hpending with
            | final h' =>
              -- it ends with the final response
              obtain ⟨hsurplus, hnone⟩ := List.append_eq_nil_iff.mp hlater.symm
              cases flatten_eq_nil hreads hnone
              subst hsurplus
              obtain ⟨last, hfeed', hresponse'⟩ := (reading_new head).feed_exact h'
              simp only [List.append_nil, hfeed']
              exact returns_final hresponse' (by simp)
            | interim h' hinterim' hpending' =>
              -- a second informational response ends in the read
              obtain ⟨last, hfeed', hresponse'⟩ :=
                (reading_new head).feed_interim h' hinterim' surplus
              simp only [hfeed']
              refine ⟨_, _, _, rfl, hresponse', fun _ => hinterim', fun hnot => ?_⟩
              exact absurd (twoInterims_both (h.ne_nil hp.opened) hpending'.ne_nil) hnot

/-! ## Exchanges on one connection -/

/-- A request, the informational responses and the final response that the server answers it with
once it has it, and the reads in which they arrive. -/
structure Exchange where
  method : Bytes
  interims : List Bytes
  final : Bytes
  response : Response
  reads : List Bytes
  informational : ∀ wire ∈ interims, ∃ r,
    SendsFrom (method == ascii "HEAD") ResponseParser.new wire r ∧ r.isInformational = true
  sends : SendsFrom (method == ascii "HEAD") ResponseParser.new final response
  notInformational : response.isInformational = false
  cut : reads.flatten = (interims ++ [final]).flatten
  nonempty : ∀ read ∈ reads, read ≠ []

def sendAll (decodeBody : Bytes → Bytes → Except HttpError Bytes) :
    H1Connection → List Exchange → List (Option (Outcome HttpError Response))
  | _, [] => []
  | conn, e :: rest =>
    let sent := send decodeBody { conn with stream := conn.stream ++ received e.reads } e.method
    sent.1 :: sendAll decodeBody sent.2 rest

def Exchange.expected (decodeBody : Bytes → Bytes → Except HttpError Bytes) (e : Exchange) :
    Option (Outcome HttpError Response) :=
  some (Outcome.ofExcept (decodeResponseBodyForRequest decodeBody e.response e.method))

theorem pending_of_interims {final : Bytes}
    (hfinal : SendsFrom head ResponseParser.new final response) {interims : List Bytes}
    (h : ∀ wire ∈ interims, ∃ r, SendsFrom head ResponseParser.new wire r ∧ r.isInformational = true)
    : Pending head response ResponseParser.new (interims ++ [final]) := by
  induction interims with
  | nil => exact .final hfinal
  | cons wire rest ih =>
    obtain ⟨⟨r, hsends, hinterim⟩, hrest⟩ := List.forall_mem_cons.mp h
    exact .interim hsends hinterim (ih hrest)

variable (decodeBody : Bytes → Bytes → Except HttpError Bytes)

theorem decodeResponse_informational (h : r.isInformational = true) (method : Bytes) :
    decodeResponseBodyForRequest decodeBody r method = .ok r := by
  rw [decodeResponseBodyForRequest, if_pos (by simp [responseMustNotHaveBody, h])]

theorem decodeResponse_status {decodeBody : Bytes → Bytes → Except HttpError Bytes}
    {decoded : Response} {method : Bytes}
    (h : decodeResponseBodyForRequest decodeBody r method = .ok decoded) :
    decoded.status = r.status := by
  unfold decodeResponseBodyForRequest at h
  split at h
  · cases h
    rfl
  · split at h
    · cases h
      rfl
    · next value _ =>
      cases hbody : (contentEncodings value).foldlM (fun body encoding => decodeBody encoding body)
          r.body with
      | error e =>
        rw [hbody] at h
        cases h
      | ok body =>
        rw [hbody] at h
        cases h
        rfl

/-- What an exchange returns on a connection with nothing left from before: the expected response,
with nothing left again, or, if two informational responses end in one read, something else. -/
theorem send_exchange (hconn : conn.stream = []) (e : Exchange) :
    let sent := send decodeBody { conn with stream := conn.stream ++ received e.reads } e.method
    (TwoInterimsInRead e.reads (e.interims ++ [e.final]) → sent.1 ≠ e.expected decodeBody) ∧
      (¬TwoInterimsInRead e.reads (e.interims ++ [e.final]) →
        sent.1 = e.expected decodeBody ∧ sent.2.stream = []) := by
  obtain ⟨answer, rest, r, hread, hresponse, htwo, hright⟩ :=
    readResponse_pending e.notInformational [] (reading_new (e.method == ascii "HEAD"))
      (pending_of_interims e.sends e.informational) e.nonempty e.cut
  rw [List.append_nil] at hread
  simp only [send, hconn, List.nil_append, hread, hresponse, Exchange.expected]
  have hbind : (Except.bind (.ok r) fun response =>
      decodeResponseBodyForRequest decodeBody response e.method) =
        decodeResponseBodyForRequest decodeBody r e.method := rfl
  constructor
  · intro h
    have hinterim := htwo h
    rw [hbind, decodeResponse_informational decodeBody hinterim, ne_eq, Option.some.injEq]
    intro heq
    have hdecoded := decodeResponse_status (Outcome.ofExcept_ok_iff.mp heq.symm)
    have hfinal := e.notInformational
    grind [Response.isInformational]
  · intro h
    obtain ⟨rfl, rfl⟩ := hright h
    exact ⟨rfl, rfl⟩

theorem sendAll_eq_iff (exchanges : List Exchange) (hconn : conn.stream = []) :
    sendAll decodeBody conn exchanges = exchanges.map (Exchange.expected decodeBody) ↔
      ∀ e ∈ exchanges, ¬TwoInterimsInRead e.reads (e.interims ++ [e.final]) := by
  induction exchanges generalizing conn with
  | nil => simp [sendAll]
  | cons e rest ih =>
    obtain ⟨hwrong, hright⟩ := send_exchange decodeBody hconn e
    rw [sendAll, List.map_cons, List.forall_mem_cons, List.cons.injEq]
    grind

/-- Each response answers its own request, for every sequence of exchanges on a connection and all
cuts into reads, if and only if no read contains the ends of two informational responses. -/
theorem responses_in_order_iff (decodeBody : Bytes → Bytes → Except HttpError Bytes)
    (exchanges : List Exchange) :
    sendAll decodeBody (.new []) exchanges = exchanges.map (Exchange.expected decodeBody) ↔
      ∀ e ∈ exchanges, ¬TwoInterimsInRead e.reads (e.interims ++ [e.final]) :=
  sendAll_eq_iff decodeBody exchanges rfl

def wholeResponse (head : Bool) (wire : Bytes) : Option Response :=
  match (answerMachine head).run ResponseParser.new wire with
  | .ok (n, q) =>
    if n = wire.length ∧ ended head q = true then (finished head q).takeResponse.toOption
    else none
  | _ => none

theorem sendsFrom_of_wholeResponse (h : wholeResponse head wire = some r) :
    SendsFrom head ResponseParser.new wire r := by
  unfold wholeResponse at h
  split at h
  · next n q hrun =>
    split at h
    · next hend =>
      refine ⟨q, hend.1 ▸ hrun, hend.2, ?_⟩
      cases hr : (finished head q).takeResponse with
      | error e =>
        rw [hr] at h
        cases h
      | ok r' =>
        rw [hr] at h
        cases h
        rfl
    · cases h
  · cases h

def hintsAndContinue : Exchange where
  method := ascii "GET"
  interims := [ascii "HTTP/1.1 103 Early Hints\r\n\r\n", ascii "HTTP/1.1 100 Continue\r\n\r\n"]
  final := ascii "HTTP/1.1 204 No Content\r\n\r\n"
  response := ⟨204, .http11, .empty, []⟩
  reads := [ascii ("HTTP/1.1 103 Early Hints\r\n\r\nHTTP/1.1 100 Continue\r\n\r\n" ++
    "HTTP/1.1 204 No Content\r\n\r\n")]
  informational := by
    rw [List.forall_mem_cons, List.forall_mem_singleton]
    exact ⟨⟨⟨103, .http11, .empty, []⟩, sendsFrom_of_wholeResponse (by decide +kernel), rfl⟩,
      ⟨100, .http11, .empty, []⟩, sendsFrom_of_wholeResponse (by decide +kernel), rfl⟩
  sends := sendsFrom_of_wholeResponse (by decide +kernel)
  notInformational := rfl
  cut := by decide +kernel
  nonempty := by decide +kernel

/-- The second informational response is returned as the response to the request. -/
theorem continue_returned_as_final :
    sendAll noCoding (.new []) [hintsAndContinue] = [some (.ok ⟨100, .http11, .empty, []⟩)] ∧
      hintsAndContinue.expected noCoding = some (.ok ⟨204, .http11, .empty, []⟩) := by
  decide +kernel

end Starfish.Http.H1
