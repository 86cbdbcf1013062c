import Starfish.Http.H1.Progress
import Starfish.Http.H1.Server

/-!
# Requests sent back to back

When the calls of `recv_request` return the requests that were sent. They do if every request
ends with the end of a read. If a read goes on into the next request, the bytes beyond the
boundary are lost with the call's buffer, and no later call can make up for that: what is left
of the stream is too short for the requests that are left (`lt_of_received`).
-/

namespace Starfish.Http.H1

open Quic (Bytes)
open Incremental
open MessageParser

/-! ## What is left of a request -/

variable {req : Request}

theorem takeRequest_eq_ok {parseUri : Bytes → Except Bytes Bytes} {p : RequestParser}
    (h : p.takeRequest parseUri = .ok req) :
    p.start.method = some req.method ∧ p.body = req.body ∧
      req.headers.entries.length = p.headers.length := by
  rw [RequestParser.takeRequest] at h
  split at h
  · cases h
  · next method hmethod =>
      split at h
      · split at h
        · cases h
        · split at h
          · cases h
          · cases hb : buildHeaders "build request: " .empty p.headers with
            | error e =>
              rw [hb] at h
              cases h
            | ok headers =>
              rw [hb] at h
              cases h
              refine ⟨hmethod, rfl, ?_⟩
              rw [buildHeaders_length hb]
              exact Nat.zero_add _
      · cases h

variable {d : Nat}

theorem requestText_drop {uris : UriSyntax} (h : SendableRequest uris req) (hd : 0 < d)
    (second third : Bytes) :
    (requestText req).drop d ≠ req.method ++ 0x20 :: (second ++ 0x20 :: third) := by
  have hmethod : (0x20 : UInt8) ∉ req.method := fun hb =>
    (isTokenByte_facts _ (isMethod_token h.method _ hb)).2.2.2.2.1 rfl
  have htarget : (0x20 : UInt8) ∉ req.target := fun hb =>
    absurd (uris.printable _ _ h.target _ hb) (by decide)
  intro heq
  rw [requestText] at heq
  by_cases hin : d ≤ req.method.length
  · -- the cut is in the method: the first word is shorter
    rw [List.drop_append_of_le_length hin] at heq
    have hwords := congrArg (splitOnce 0x20) heq
    rw [splitOnce_append hmethod, splitOnce_append fun hb => hmethod (List.mem_of_mem_drop hb)]
      at hwords
    grind
  · -- the cut is behind the method: at most one space is left
    rw [List.drop_append, List.drop_of_length_le (by omega), List.nil_append] at heq
    have hcount : ((0x20 :: (req.target ++ 0x20 :: ascii "HTTP/1.1")).drop
        (d - req.method.length)).count (0x20 : UInt8) ≤ 1 := by
      obtain ⟨k, hk⟩ : ∃ k, d - req.method.length = k + 1 := ⟨d - req.method.length - 1, by omega⟩
      rw [hk, List.drop_succ_cons]
      refine Nat.le_trans ((List.drop_sublist _ _).count_le _) ?_
      rw [List.count_append, List.count_eq_zero_of_not_mem htarget]
      decide
    grind

variable {start : RequestStart} {headers : List (Bytes × Bytes)}

theorem parseRequestLine_drop {uris : UriSyntax} (h : SendableRequest uris req) (hd : 0 < d)
    (hparse : parseRequestLine ((requestText req).drop d) = .ok start) :
    start.method ≠ some req.method := by
  rw [parseRequestLine] at hparse
  split at hparse
  next =>
      split at hparse
      · cases hparse
      · cases hparse
      · cases hparse
      · next first second third rest hparts =>
          split at hparse
          next =>
              obtain ⟨digit, -, rfl⟩ := Outcome.map_eq_ok.mp hparse
              rw [Ne, Option.some.injEq]
              rintro rfl
              exact requestText_drop h hd second third (splitN_three hparts).1
          next => cases hparse
  next => cases hparse

/-! ## The first line of what is left -/

variable {n : Nat} {q : RequestParser} {rest : Bytes}

theorem run_firstLine {line : Bytes} (hline : (0x0a : UInt8) ∉ line)
    (hrun : requestMachine.run RequestParser.new (line ++ 0x0a :: rest) = .ok (n, q)) :
    ∃ start, parseRequestLine (stripCr line) = .ok start ∧
      ∃ k, requestMachine.run (afterStart RequestParser.grammar start (line.length + 1)) rest =
        .ok (k, q) := by
  have hhead := readsHead_start (g := RequestParser.grammar) (.inl rfl)
  change (machine RequestParser.grammar).run (MessageParser.new RequestParser.grammar) _ = _ at hrun
  rw [run_headLine hhead rfl line hline (Nat.zero_le _)] at hrun
  split at hrun
  · obtain ⟨r, hfinish, hrest⟩ := Outcome.bind_eq_ok.mp hrun
    obtain ⟨start, hstart, rfl⟩ := Outcome.map_eq_ok.mp hfinish
    obtain ⟨k, -, hk⟩ := shift_eq_ok.mp hrest
    refine ⟨start, hstart, k, ?_⟩
    rw [← hk]
    simp [afterStart, MessageParser.new, pushed]
  · cases hrun

theorem stripCr_drop (text : Bytes) (d : Nat) : stripCr ((text ++ [0x0d]).drop d) = text.drop d := by
  by_cases hd : d ≤ text.length
  · rw [List.drop_append_of_le_length hd, stripCr_concat]
  · rw [List.drop_of_length_le (by rw [List.length_append, List.length_singleton]; omega),
      List.drop_of_length_le (by omega)]
    rfl

theorem run_cutLine (text : Bytes) (htext : (0x0a : UInt8) ∉ text) (hd : d ≤ text.length + 1)
    (hrun : requestMachine.run RequestParser.new ((text ++ 0x0d :: 0x0a :: rest).drop d) = .ok (n, q))
    :
    ∃ start, parseRequestLine (text.drop d) = .ok start ∧ ∃ size, size + d = text.length + 2 ∧
      ∃ k, requestMachine.run (afterStart RequestParser.grammar start size) rest = .ok (k, q) := by
  have hsplit : (text ++ 0x0d :: 0x0a :: rest).drop d =
      (text ++ [0x0d]).drop d ++ 0x0a :: rest := by
    rw [← List.drop_append_of_le_length (by rw [List.length_append, List.length_singleton]; omega)]
    simp
  rw [hsplit] at hrun
  have hline : (0x0a : UInt8) ∉ (text ++ [0x0d]).drop d := fun hb => by
    have := List.mem_of_mem_drop hb
    simp [htext] at this
  obtain ⟨start, hstart, k, hk⟩ := run_firstLine hline hrun
  rw [stripCr_drop] at hstart
  grind

theorem run_headers_of_afterStart (hw : ∀ h ∈ headers, WireHeader h) {size : Nat}
    (hsize : size + (headerLines headers).length + 2 ≤ maxHeaderSize)
    (hrun : requestMachine.run (afterStart RequestParser.grammar start size) (headerLines headers ++ 0x0d :: 0x0a :: rest) = .ok (n, q)) :
    q.headers = headers := by
  have hcount : (afterStart RequestParser.grammar start size).headerBytesRead = size := rfl
  rw [run_headers hw rfl rfl (by rw [hcount]; omega),
    run_emptyLine rfl rfl (by simp only [withHeaders]; omega)] at hrun
  obtain ⟨k, -, hk⟩ := shift_eq_ok.mp hrun
  obtain ⟨p, hp, hrest⟩ := Outcome.bind_eq_ok.mp hk
  rw [Outcome.ofExcept_ok_iff] at hp
  obtain ⟨l, -, hl⟩ := shift_eq_ok.mp hrest
  obtain ⟨hsame, -, hpast⟩ := RequestParser.tame.determine _ _ hp
  have hready : Open p := by
    rcases RequestParser.lawful.determine _ _ hp with h | h | ⟨h, hbody⟩
    · exact ready_of_line (.inr (.inl h))
    · exact ready_of_line (.inr (.inr (.inr h)))
    · exact ready_of_body h hbody
  rw [run_headers_eq RequestParser.lawful RequestParser.tame hready hpast hl, hsame.headers]
  simp [withHeaders, afterStart, MessageParser.new]

theorem headers_lt_of_cut (hw : ∀ h ∈ headers, WireHeader h)
    (hsize : (headerLines headers).length + 2 ≤ maxHeaderSize)
    (hd : d < (headerLines headers).length)
    (hrun : requestMachine.run RequestParser.new ((headerLines headers ++ 0x0d :: 0x0a :: rest).drop d) = .ok (n, q))
    : q.headers.length < headers.length := by
  obtain ⟨front, piece, back, hpieces, hlt, hle⟩ := exists_piece
    (headers.map fun h => headerText h ++ [0x0d, 0x0a]) (n := d + 1) (by omega)
    (by rw [← List.flatMap_def]; exact hd)
  obtain ⟨before, others, rfl, rfl, hothers⟩ := List.map_eq_append_iff.mp hpieces
  obtain ⟨h, after, rfl, rfl, rfl⟩ := List.map_eq_cons_iff.mp hothers
  change (headerLines before).length < d + 1 at hlt
  change d + 1 ≤ (headerLines before).length + _ at hle
  have hlines : headerLines (before ++ h :: after) ++ 0x0d :: 0x0a :: rest =
      headerLines before ++ (headerText h ++ 0x0d :: 0x0a ::
        (headerLines after ++ 0x0d :: 0x0a :: rest)) := by
    simp [headerLines_append]
  have hlen : (headerLines (before ++ h :: after)).length = (headerLines before).length +
      ((headerText h).length + 2 + (headerLines after).length) := by
    rw [headerLines_append, List.length_append, length_headerLines_cons]
  rw [hlines, List.drop_append, List.drop_of_length_le (by omega), List.nil_append] at hrun
  obtain ⟨start, -, size, hcut, k, hk⟩ := run_cutLine _
    (headerText_newline (hw h (by simp))) (by simp at hle; omega) hrun
  rw [run_headers_of_afterStart (fun e he => hw e (by simp [he])) (by omega) hk]
  simp
  omega

/-- What is left after a request was read from the stream without its first bytes is less than
what follows the request. -/
theorem lt_of_received {uris : UriSyntax} (h : SendableRequest uris req) {tail : Bytes} (hd : 0 < d)
    (hrun : requestMachine.run RequestParser.new ((encodeRequest req ++ tail).drop d) = .ok (n, q))
    (hq : q.isComplete = true) (htake : q.takeRequest uris.parse = .ok (receivedRequest req)) :
    (encodeRequest req).length < d + n := by
  obtain ⟨hmethod, hbody, hcount⟩ : q.start.method = some req.method ∧ q.body = req.body ∧
      (receivedHeaders req.headers (addsLengthToRequest req) req.body).entries.length =
        q.headers.length := takeRequest_eq_ok htake
  have hwire : (receivedHeaders req.headers (addsLengthToRequest req) req.body).entries.length =
      (wireHeaders req.headers (addsLengthToRequest req) req.body).length := by
    rw [buildHeaders_length (h.message.buildHeaders_eq "" (addsLengthToRequest req))]
    exact Nat.zero_add _
  have hn : 0 < n := by
    refine Machine.run_pos _ rfl (fun hnil => ?_) hrun
    rw [hnil] at hrun
    cases hrun
    cases hq
  have hsize := h.head_size
  rw [encodeRequest, List.length_append, hsize]
  rw [encodeRequest, List.append_assoc, encodeRequestHead_eq h.message] at hrun
  have hhead := hsize ▸ h.head
  rw [headSize] at hhead ⊢
  by_contra hle
  by_cases hline : d ≤ (requestText req).length + 1
  · -- the cut is in the request line
    obtain ⟨start, hstart, size, -, k, hk⟩ := run_cutLine _ h.requestText_newline hline hrun
    have hsame := run_start_eq RequestParser.lawful RequestParser.tame
      (ready_of_line (.inl rfl)) (by simp [PastStart, afterStart]) hk
    refine parseRequestLine_drop h hd hstart ?_
    rw [← hmethod, hsame]
    rfl
  · rw [List.drop_append, List.drop_of_length_le (by omega), List.nil_append] at hrun
    obtain ⟨e, he⟩ : ∃ e, d - (requestText req).length = e + 2 := ⟨d - (requestText req).length - 2,
      by omega⟩
    rw [he, List.drop_succ_cons, List.drop_succ_cons] at hrun
    by_cases hheaders : e < (headerLines (wireHeaders req.headers (addsLengthToRequest req)
        req.body)).length
    · -- the cut is among the header lines
      have hlt := headers_lt_of_cut (h.message.wire _) (by omega) hheaders hrun
      omega
    · by_cases hempty : e ≤ (headerLines (wireHeaders req.headers (addsLengthToRequest req)
          req.body)).length + 1
      · -- the cut is in the empty line
        rw [List.drop_append, List.drop_of_length_le (by omega), List.nil_append] at hrun
        obtain ⟨start, hstart, -⟩ := run_cutLine [] (by simp) (by simp; omega) hrun
        rw [List.drop_nil] at hstart
        cases hstart
      · -- the cut is in the body: there is not enough left for it
        have hshort := body_length_lt RequestParser.lawful RequestParser.tame
          RequestParser.new_ready (.inl rfl) hn hrun
        rw [hbody] at hshort
        omega

/-! ## One call -/

section Calls

variable (parseUri : Bytes → Except Bytes Bytes) {conn : H1Connection} {reads : List Bytes}

/-- A call answers with the request that the parser has found, and keeps the reads after the one
in which it ends. -/
theorem recvRequest_eq (hstream : conn.stream = received reads) (hne : ∀ r ∈ reads, r ≠ [])
    (hrun : requestMachine.run RequestParser.new reads.flatten = .ok (n, q))
    (hq : q.isComplete = true) :
    ∃ front piece back, reads = front ++ piece :: back ∧ front.flatten.length < n ∧
      n ≤ front.flatten.length + piece.length ∧
      (recvRequest parseUri conn).1 =
        some (Outcome.ofExcept ((q.takeRequest parseUri).map some)) ∧
      (recvRequest parseUri conn).2.stream = received back := by
  obtain ⟨front, piece, back, hreads, hlt, hle, hloop⟩ := readRequest_eq hne hrun hq
  refine ⟨front, piece, back, hreads, hlt, hle, ?_, ?_⟩ <;>
    rw [recvRequest, hstream, hloop]

theorem run_of_recvRequest (hstream : conn.stream = received reads) (hne : ∀ r ∈ reads, r ≠ [])
    (h : (recvRequest parseUri conn).1 = some (.ok (some req))) :
    ∃ n q, requestMachine.run RequestParser.new reads.flatten = .ok (n, q) ∧
      q.isComplete = true ∧ q.takeRequest parseUri = .ok req := by
  have hfst := readRequest_fst hne RequestParser.new_ready rfl false
  rw [recvRequest, hstream] at h
  generalize readRequest (received reads) RequestParser.new false = loop at hfst h
  obtain ⟨answer, stream⟩ := loop
  cases hfst
  cases hrun : requestMachine.run RequestParser.new reads.flatten with
  | ok r =>
    obtain ⟨n, q⟩ := r
    simp only [hrun, Outcome.bind] at h
    cases hq : q.isComplete with
    | true =>
      simp only [hq, if_true] at h
      refine ⟨n, q, rfl, hq, ?_⟩
      cases htake : q.takeRequest parseUri with
      | ok found =>
        rw [htake] at h
        cases h
        rfl
      | error e =>
        rw [htake] at h
        cases h
    | false =>
      simp only [atEof] at h
      grind
  | error e | panic =>
    simp only [hrun] at h
    cases h

theorem recvRequest_closed (hstream : conn.stream = received []) :
    (recvRequest parseUri conn).1 = some (.ok none) := by
  rw [recvRequest, hstream]
  rfl

end Calls

/-! ## All calls -/

def allReceived (reqs : List Request) : List (Option (Outcome HttpError (Option Request))) :=
  reqs.map (fun req => some (.ok (some (receivedRequest req)))) ++ [some (.ok none)]

theorem allReceived_cons (req : Request) (reqs : List Request) :
    allReceived (req :: reqs) = some (.ok (some (receivedRequest req))) :: allReceived reqs := rfl

def Aligned (reqs : List Request) (reads : List Bytes) : Prop :=
  ∃ groups : List (List Bytes), reads = groups.flatten ∧
    groups.map List.flatten = reqs.map encodeRequest

theorem flatten_back {front back : List Bytes} {piece encoding others : Bytes}
    (h : (front ++ piece :: back).flatten = (encoding ++ others).drop d)
    (hle : encoding.length ≤ d + (front.flatten.length + piece.length)) :
    back.flatten =
      others.drop (d + (front.flatten.length + piece.length) - encoding.length) := by
  have hdrop := congrArg (List.drop (front.flatten.length + piece.length)) h
  rw [List.drop_drop, List.drop_append, List.drop_of_length_le hle, List.nil_append] at hdrop
  rw [← hdrop, List.flatten_append, List.flatten_cons, ← List.append_assoc,
    List.drop_left' (by rw [List.length_append])]

section Pipelining

variable {uris : UriSyntax} {reqs : List Request} {conn : H1Connection} {reads : List Bytes}

theorem not_allReceived_of_lost (hreqs : ∀ req ∈ reqs, SendableRequest uris req)
    (hstream : conn.stream = received reads) (hne : ∀ r ∈ reads, r ≠ []) (hd : 0 < d)
    (hle : d ≤ (reqs.flatMap encodeRequest).length)
    (hreads : reads.flatten = (reqs.flatMap encodeRequest).drop d) :
    recvAll uris.parse (reqs.length + 1) conn ≠ allReceived reqs := by
  induction reqs generalizing conn reads d with
  | nil =>
    rw [List.flatMap_nil, List.length_nil] at hle
    omega
  | cons req rest ih =>
    rw [List.forall_mem_cons] at hreqs
    intro hall
    obtain ⟨hfirst, hothers⟩ := List.cons.inj hall
    obtain ⟨n, q, hrun, hq, htake⟩ := run_of_recvRequest uris.parse hstream hne hfirst
    obtain ⟨front, piece, back, rfl, -, hin, -, hback⟩ :=
      recvRequest_eq uris.parse hstream hne hrun hq
    rw [hreads, List.flatMap_cons] at hrun
    have hlt := lt_of_received hreqs.1 hd hrun hq htake
    -- what is left of the stream lacks bytes of the other requests
    rw [List.flatMap_cons] at hreads hle
    have hlen := congrArg List.length hreads
    simp only [List.flatten_append, List.flatten_cons, List.length_append, List.length_drop]
      at hlen hle
    exact ih hreqs.2 hback (fun r hr => hne r (by simp [hr]))
      (d := d + (front.flatten.length + piece.length) - (encodeRequest req).length)
      (by omega) (by omega) (flatten_back hreads (by omega)) hothers

theorem aligned_of_allReceived (hreqs : ∀ req ∈ reqs, SendableRequest uris req)
    (hstream : conn.stream = received reads) (hne : ∀ r ∈ reads, r ≠ [])
    (hreads : reads.flatten = reqs.flatMap encodeRequest)
    (hall : recvAll uris.parse (reqs.length + 1) conn = allReceived reqs) :
    Aligned reqs reads := by
  induction reqs generalizing conn reads with
  | nil =>
    cases reads with
    | nil => exact ⟨[], rfl, rfl⟩
    | cons read rest =>
      simp_all
  | cons req rest ih =>
    rw [List.forall_mem_cons] at hreqs
    obtain ⟨-, hothers⟩ := List.cons.inj hall
    obtain ⟨q, hrun, hq⟩ := hreqs.1.run (rest.flatMap encodeRequest)
    rw [← List.flatMap_cons, ← hreads] at hrun
    obtain ⟨front, piece, back, rfl, -, hin, -, hback⟩ :=
      recvRequest_eq uris.parse hstream hne hrun (by simp [isComplete, hq.complete])
    have hback' := fun r hr => hne r (List.mem_append_right front (List.mem_cons_of_mem piece hr))
    have hsplit : (front ++ [piece]).flatten ++ back.flatten =
        encodeRequest req ++ rest.flatMap encodeRequest := by
      rw [← List.flatMap_cons, ← hreads]
      simp
    rcases Nat.eq_or_lt_of_le hin with hexact | hmore
    · obtain ⟨hfront, hrest⟩ := List.append_inj hsplit
        (by rw [List.flatten_concat, List.length_append, hexact])
      obtain ⟨groups, hgroups, hmap⟩ := ih hreqs.2 hback hback' hrest hothers
      refine ⟨(front ++ [piece]) :: groups, ?_, ?_⟩
      · rw [List.flatten_cons, ← hgroups, List.append_assoc, List.singleton_append]
      · rw [List.map_cons, List.map_cons, hmap, hfront]
    · -- bytes of the next requests are lost
      have hlen := congrArg List.length hsplit
      simp only [List.flatten_append, List.flatten_cons, List.length_append] at hlen
      refine absurd hothers (not_allReceived_of_lost hreqs.2 hback hback'
        (d := front.flatten.length + piece.length - (encodeRequest req).length)
        (by omega) (by omega) ?_)
      rw [flatten_back (d := 0) (by rw [hreads, List.flatMap_cons, List.drop_zero]) (by omega)]
      simp

theorem append_eq_of_boundary {front back group others : List Bytes} {piece : Bytes}
    (hne : ∀ r ∈ group, r ≠ []) (h : front ++ piece :: back = group ++ others)
    (hlt : front.flatten.length < group.flatten.length)
    (hle : group.flatten.length ≤ front.flatten.length + piece.length) : back = others := by
  have happ : (front ++ [piece]) ++ back = group ++ others := by
    rw [List.append_assoc, List.singleton_append, h]
  rcases List.append_eq_append_iff.mp happ with ⟨extra, hgroup, hback⟩ | ⟨extra, hfront, hothers⟩
  · cases extra with
    | nil => exact hback
    | cons read rest =>
      simp_all
  · rcases List.eq_nil_or_concat extra with rfl | ⟨init, last, rfl⟩
    · exact hothers.symm
    · rw [List.concat_eq_append, ← List.append_assoc] at hfront
      have hinit := (List.append_inj' hfront rfl).1
      grind

theorem allReceived_of_aligned (hreqs : ∀ req ∈ reqs, SendableRequest uris req)
    (hstream : conn.stream = received reads) (hne : ∀ r ∈ reads, r ≠ [])
    (h : Aligned reqs reads) :
    recvAll uris.parse (reqs.length + 1) conn = allReceived reqs := by
  obtain ⟨groups, rfl, hgroups⟩ := h
  induction reqs generalizing conn groups with
  | nil =>
    rw [List.map_nil, List.map_eq_nil_iff] at hgroups
    subst hgroups
    rw [List.length_nil, recvAll, recvAll, recvRequest_closed uris.parse hstream]
    rfl
  | cons req rest ih =>
    rw [List.forall_mem_cons] at hreqs
    obtain ⟨group, others, rfl, hgroup, hothers⟩ := List.map_eq_cons_iff.mp hgroups
    obtain ⟨q, hrun, hq⟩ := hreqs.1.run others.flatten.flatten
    rw [← hgroup, ← List.flatten_append] at hrun
    obtain ⟨front, piece, back, hreads, hlt, hle, hanswer, hback⟩ :=
      recvRequest_eq uris.parse hstream hne hrun (by simp [isComplete, hq.complete])
    have hleft := append_eq_of_boundary (fun r hr => hne r (by simp [hr])) hreads.symm hlt hle
    rw [allReceived_cons, List.length_cons, recvAll, hanswer, hreqs.1.takeRequest_eq hq]
    congr 1
    grind

end Pipelining

/-- For requests that are sent back to back, however the stream is cut into reads: the calls of
`recv_request` return exactly these requests in order, and then none, if and only if every
request ends with the end of a read. -/
theorem recvAll_eq_iff (uris : UriSyntax) (reqs : List Request)
    (hreqs : ∀ req ∈ reqs, SendableRequest uris req) (reads : List Bytes)
    (hne : ∀ r ∈ reads, r ≠ []) (hreads : reads.flatten = reqs.flatMap encodeRequest) :
    recvAll uris.parse (reqs.length + 1) (H1Connection.new (received reads)) = allReceived reqs ↔
      Aligned reqs reads :=
  ⟨aligned_of_allReceived hreqs rfl hne hreads, allReceived_of_aligned hreqs rfl hne⟩

def get : Request := ⟨ascii "GET", ascii "/a", .http11, HeaderMap.empty, []⟩

theorem pathA_visible : (∀ b ∈ ascii "/a", 0x20 < b) ∧ validUtf8 (ascii "/a") = true := by
  decide +kernel

/-- URIs, of which only `/a` is used here. -/
def pathA : UriSyntax := oneUri (ascii "/a") pathA_visible

/-- Two requests, each in reads of its own, are both received. -/
theorem two_requests_received :
    recvAll pathA.parse 3 (H1Connection.new (received
      [ascii "GET /a HT", ascii "TP/1.1\r\n\r\n", encodeRequest get])) =
      allReceived [get, get] := by
  have hget : SendableRequest pathA get := ⟨by decide, rfl, ⟨by decide, by decide, by decide,
    by decide, by decide +kernel, by decide +kernel⟩, by decide +kernel⟩
  refine (recvAll_eq_iff pathA [get, get] (by simp [hget]) _ (by decide) (by decide)).mpr ?_
  exact ⟨[[ascii "GET /a HT", ascii "TP/1.1\r\n\r\n"], [encodeRequest get]], rfl, by decide⟩

/-- Two requests in one read: the second one is lost. -/
theorem pipelined_request_lost :
    recvAll pathA.parse 3 (H1Connection.new (received [encodeRequest get ++ encodeRequest get])) =
      [some (.ok (some (receivedRequest get))), some (.ok none), some (.ok none)] := by
  decide +kernel

end Starfish.Http.H1
