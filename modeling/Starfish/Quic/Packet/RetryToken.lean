import Mathlib.Data.List.Induction
import Starfish.Quic.Packet.Header

/-!
# Retry tokens

The token with which a server lets a client prove its address: address, time and original
connection ID in the clear, under a truncated MAC. Keys and MACs are answers of the library,
clock readings are arguments.
-/

namespace Starfish.Quic

section Fields

variable {x y l : Bytes} {n k : Nat}

/-- A field that is there has the bytes `x` when they stand at its offset. -/
theorem slice_eq_iff (hx : x.length = n) :
    k + n ≤ l.length ∧ slice l k (k + n) = x ↔ k ≤ l.length ∧ x <+: l.drop k := by
  rw [slice, Nat.add_sub_cancel_left, List.prefix_iff_eq_take, hx, eq_comm (a := x)]
  refine ⟨fun h => ⟨by omega, h.2⟩, fun h => ⟨?_, h.2⟩⟩
  have hlen := congrArg List.length h.2
  rw [List.length_take, List.length_drop, hx] at hlen
  omega

theorem append_prefix_drop (hx : x.length = n) :
    x ++ y <+: l.drop k ↔ x <+: l.drop k ∧ y <+: l.drop (k + n) := by
  rw [← List.drop_drop]
  constructor
  · rintro ⟨back, h⟩
    rw [← h, List.append_assoc, List.drop_left' hx]
    exact ⟨List.prefix_append _ _, List.prefix_append _ _⟩
  · rintro ⟨⟨back, h⟩, hy⟩
    rw [← h, List.drop_left' hx] at hy
    rw [← h]
    exact (List.prefix_append_right_inj x).2 hy

end Fields

def beBytes : Nat → Nat → Bytes
  | 0, _ => []
  | width + 1, n => beBytes width (n / 256) ++ [UInt8.ofNat n]

@[simp] theorem length_beBytes (width n : Nat) : (beBytes width n).length = width := by
  induction width generalizing n with
  | zero => rfl
  | succ width ih => simp [beBytes, ih]

theorem beNat_concat (front : Bytes) (b : UInt8) :
    beNat (front ++ [b]) = beNat front * 256 + b.toNat := by
  simp [beNat]

variable {width addrLen : Nat} {stamp : UInt64} {other : SocketAddr} {dcid' : ConnectionId}

theorem beNat_beBytes {n : Nat} (h : n < 256 ^ width) : beNat (beBytes width n) = n := by
  induction width generalizing n with
  | zero => simp_all [beBytes, beNat]
  | succ width ih =>
    have hdiv : n / 256 < 256 ^ width := by
      omega
    rw [beBytes, beNat_concat, ih hdiv, UInt8.toNat_ofNat']
    omega

theorem beBytes_beNat (bytes : Bytes) : beBytes bytes.length (beNat bytes) = bytes := by
  induction bytes using List.reverseRecOn with
  | nil => rfl
  | append_singleton front b ih =>
    have hb : b.toNat < 256 := b.toNat_lt
    have hdiv : (beNat front * 256 + b.toNat) / 256 = beNat front := by omega
    have hlow : UInt8.ofNat (beNat front * 256 + b.toNat) = b := by
      apply UInt8.toNat_inj.1
      rw [UInt8.toNat_ofNat']
      omega
    rw [List.length_append, List.length_singleton, beBytes, beNat_concat, hdiv, hlow, ih]

theorem beNat_lt (bytes : Bytes) : beNat bytes < 256 ^ bytes.length := by
  induction bytes using List.reverseRecOn with
  | nil => simp [beNat]
  | append_singleton front b ih =>
    have hb : b.toNat < 256 := b.toNat_lt
    rw [beNat_concat, List.length_append, List.length_singleton, Nat.pow_succ]
    omega

inductive IpAddr
  | v4 (octets : Vector UInt8 4)
  | v6 (octets : Vector UInt8 16)
deriving DecidableEq

structure SocketAddr where
  ip : IpAddr
  port : UInt16
deriving DecidableEq

def retryTokenMaxAgeSecs : Nat := 10
def tokenKindRetry : UInt8 := 0x00
def tokenIpVersionV4 : UInt8 := 0x04
def tokenIpVersionV6 : UInt8 := 0x06
def tokenTagLen : Nat := 16

inductive RetryTokenValidation
  | valid (originalDcid : ConnectionId)
  | invalid
  | unknown
deriving DecidableEq

def clientIpVersion (clientAddr : SocketAddr) : UInt8 :=
  match clientAddr.ip with
  | .v4 _ => tokenIpVersionV4
  | .v6 _ => tokenIpVersionV6

def clientIpBytes (clientAddr : SocketAddr) : Bytes :=
  match clientAddr.ip with
  | .v4 ip => ip.toList
  | .v6 ip => ip.toList

def currentTimeMs (clock : Option UInt64) : UInt64 := clock.getD 0

abbrev TokenKey := Vector UInt8 32

structure TokenCrypto where
  deriveTokenSubkey : TokenKey → String → TokenKey
  hmacSha256 : TokenKey → Bytes → Vector UInt8 32

namespace TokenCrypto

variable (P : TokenCrypto)

def deriveRetryTokenKey (secret : TokenKey) : TokenKey := P.deriveTokenSubkey secret "retry-hmac"

def retryTag (secret : TokenKey) (data : Bytes) : Bytes :=
  (P.hmacSha256 (P.deriveRetryTokenKey secret) data).toList.take tokenTagLen

end TokenCrypto

def retryTokenData (clientAddr : SocketAddr) (stamp : UInt64) (originalDcid : ConnectionId) :
    Bytes :=
  [tokenKindRetry] ++ ([clientIpVersion clientAddr] ++ (clientIpBytes clientAddr ++
    (beBytes 2 clientAddr.port.toNat ++ (beBytes 8 stamp.toNat ++
      ([UInt8.ofNat originalDcid.len] ++ originalDcid.bytes)))))

variable (P : TokenCrypto)

def encodeRetryToken (clientAddr : SocketAddr) (originalDcid : ConnectionId)
    (retrySecret : TokenKey) (clock : Option UInt64) : Bytes :=
  let token := retryTokenData clientAddr (currentTimeMs clock) originalDcid
  token ++ P.retryTag retrySecret token

def validateRetryData (data : Bytes) (clientAddr : SocketAddr) (addrLen : Nat)
    (clock : Option UInt64) : RetryTokenValidation :=
  if data[1]? ≠ some (clientIpVersion clientAddr) then .invalid
  else if data.length < 2 + addrLen ∨ slice data 2 (2 + addrLen) ≠ clientIpBytes clientAddr then
    .invalid
  else if data.length < 2 + addrLen + 2 then .invalid
  else if beNat (slice data (2 + addrLen) (2 + addrLen + 2)) ≠ clientAddr.port.toNat then .invalid
  else if data.length < 2 + addrLen + 2 + 8 then .invalid
  else
    let tokenTimestampMs := beNat (slice data (2 + addrLen + 2) (2 + addrLen + 2 + 8))
    match clock with
    | none => .invalid
    | some now =>
      if now.toNat < tokenTimestampMs ∨
          retryTokenMaxAgeSecs * 1000 < now.toNat - tokenTimestampMs then .invalid
      else
        match data[2 + addrLen + 2 + 8]? with
        | none => .invalid
        | some dcidLen =>
          if maxCidLen < dcidLen.toNat then .invalid
          else if data.length < 2 + addrLen + 2 + 8 + 1 + dcidLen.toNat then .invalid
          else
            let offset := 2 + addrLen + 2 + 8 + 1
            .valid (.fromSlice (slice data offset (offset + dcidLen.toNat)))

def validateRetryToken (token : Bytes) (clientAddr : SocketAddr) (retrySecret : TokenKey)
    (clock : Option UInt64) : Except QuicError RetryTokenValidation :=
  let addrLen := match clientAddr.ip with
    | .v4 _ => 4
    | .v6 _ => 16
  let minLen := 1 + 1 + addrLen + 2 + 8 + 1 + tokenTagLen
  if token.length < minLen ∨ token.head? ≠ some tokenKindRetry then .ok .unknown
  else
    let tagStart := token.length - tokenTagLen
    let data := token.take tagStart
    let receivedTag := token.drop tagStart
    if receivedTag ≠ P.retryTag retrySecret data then .ok .unknown
    else .ok (validateRetryData data clientAddr addrLen clock)

/-! ## The layout -/

variable {P} {addr : SocketAddr} {secret : TokenKey} {clock : Option UInt64} {dcid : ConnectionId}
  {token data : Bytes}

def Fresh (stamp now : UInt64) : Prop :=
  stamp ≤ now ∧ now.toNat - stamp.toNat ≤ retryTokenMaxAgeSecs * 1000

theorem length_retryTag : (P.retryTag secret data).length = tokenTagLen := by
  simp [TokenCrypto.retryTag, tokenTagLen]

theorem singleton_prefix_drop {b : UInt8} {k : Nat} : [b] <+: data.drop k ↔ data[k]? = some b := by
  rw [← List.head?_drop]
  cases data.drop k <;> simp [eq_comm]

theorem number_field_iff {value k : Nat} (hvalue : value < 256 ^ width) :
    k + width ≤ data.length ∧ beNat (slice data k (k + width)) = value ↔
      k ≤ data.length ∧ beBytes width value <+: data.drop k := by
  rw [← slice_eq_iff (length_beBytes width value)]
  refine and_congr_right fun hle => ⟨fun h => ?_, fun h => h ▸ beNat_beBytes hvalue⟩
  have hlen : (slice data k (k + width)).length = width := by
    rw [slice, List.length_take, List.length_drop]
    omega
  have hbytes := beBytes_beNat (slice data k (k + width))
  rw [hlen, h] at hbytes
  exact hbytes.symm

theorem retryTokenData_prefix_iff (haddr : (clientIpBytes addr).length = addrLen) :
    retryTokenData addr stamp dcid <+: data ↔
      data[0]? = some tokenKindRetry ∧ data[1]? = some (clientIpVersion addr) ∧
      clientIpBytes addr <+: data.drop 2 ∧
      beBytes 2 addr.port.toNat <+: data.drop (2 + addrLen) ∧
      beBytes 8 stamp.toNat <+: data.drop (2 + addrLen + 2) ∧
      data[2 + addrLen + 2 + 8]? = some (UInt8.ofNat dcid.len) ∧
      dcid.bytes <+: data.drop (2 + addrLen + 2 + 8 + 1) := by
  rw [← singleton_prefix_drop, ← singleton_prefix_drop, ← singleton_prefix_drop]
  change _ <+: data.drop 0 ↔ _
  rw [retryTokenData, append_prefix_drop (n := 1) rfl, append_prefix_drop (n := 1) rfl,
    append_prefix_drop haddr, append_prefix_drop (length_beBytes _ _),
    append_prefix_drop (length_beBytes _ _), append_prefix_drop (n := 1) rfl]

theorem reject_iff {c : Prop} [Decidable c] {rest : RetryTokenValidation} :
    (if c then .invalid else rest) = .valid dcid ↔ ¬ c ∧ rest = .valid dcid := by
  by_cases hc : c <;> simp [hc]

theorem dcid_field_iff {k : Nat} :
    (match data[k]? with
      | none => RetryTokenValidation.invalid
      | some dcidLen =>
        if maxCidLen < dcidLen.toNat then .invalid
        else if data.length < k + 1 + dcidLen.toNat then .invalid
        else .valid (.fromSlice (slice data (k + 1) (k + 1 + dcidLen.toNat)))) = .valid dcid ↔
      data[k]? = some (UInt8.ofNat dcid.len) ∧ dcid.bytes <+: data.drop (k + 1) := by
  have hmax : dcid.bytes.length ≤ 20 := dcid.length_le
  cases hlen : data[k]? with
  | none => simp
  | some dcidLen =>
    have hk : k < data.length := (List.getElem?_eq_some_iff.1 hlen).1
    simp only [reject_iff, Option.some.injEq, RetryTokenValidation.valid.injEq, Nat.not_lt]
    constructor
    · rintro ⟨hmax', hle, rfl⟩
      have hslice : (slice data (k + 1) (k + 1 + dcidLen.toNat)).length = dcidLen.toNat := by
        rw [slice, List.length_take, List.length_drop]
        omega
      have htake : (ConnectionId.fromSlice (slice data (k + 1) (k + 1 + dcidLen.toNat))).bytes =
          slice data (k + 1) (k + 1 + dcidLen.toNat) :=
        List.take_of_length_le (by rw [hslice]; exact hmax')
      rw [ConnectionId.len, htake, hslice, UInt8.ofNat_toNat]
      exact ⟨rfl, ((slice_eq_iff hslice).1 ⟨hle, rfl⟩).2⟩
    · rintro ⟨rfl, hprefix⟩
      have htoNat : (UInt8.ofNat dcid.len).toNat = dcid.bytes.length := by
        rw [UInt8.toNat_ofNat', ConnectionId.len]
        omega
      obtain ⟨hle, heq⟩ := (slice_eq_iff rfl).2 ⟨hk, hprefix⟩
      rw [htoNat, heq]
      exact ⟨dcid.length_le, hle, fromSlice_bytes dcid⟩

/-- Checked data starts with the fields for the address, with a fresh time and the connection ID
that is returned. -/
theorem validateRetryData_eq_valid_iff
    (haddr : (clientIpBytes addr).length = addrLen) (hkind : data[0]? = some tokenKindRetry)
    (hlen : 2 + addrLen + 2 + 8 ≤ data.length) :
    validateRetryData data addr addrLen clock = .valid dcid ↔
      ∃ now stamp, clock = some now ∧ Fresh stamp now ∧
        retryTokenData addr stamp dcid <+: data := by
  have hip := slice_eq_iff (l := data) (k := 2) haddr
  have hport := @number_field_iff 2 data _ (2 + addrLen) addr.port.toNat_lt
  have hstamp := fun stamp : UInt64 => @number_field_iff 8 data _ (2 + addrLen + 2) stamp.toNat_lt
  rw [and_iff_right (by omega), and_iff_right (by omega)] at hip hport
  simp only [retryTokenData_prefix_iff haddr, validateRetryData, reject_iff, hkind, true_and,
    not_or, not_not, ← hip, ← hport]
  cases clock with
  | none => simp
  | some now =>
    simp only [reject_iff, dcid_field_iff, not_or, Nat.not_lt]
    constructor
    · rintro ⟨hversion, ⟨-, hip'⟩, -, hport', -, hfresh, hdcid⟩
      have hfits : beNat (slice data (2 + addrLen + 2) (2 + addrLen + 2 + 8)) < 2 ^ 64 :=
        Nat.lt_of_lt_of_le (beNat_lt _) (Nat.pow_le_pow_right (by decide) (by
          rw [slice, List.length_take]
          omega) : _ ≤ 256 ^ 8)
      have htoNat := UInt64.toNat_ofNat_of_lt' hfits
      refine ⟨now, .ofNat (beNat _), rfl, ⟨?_, ?_⟩, hversion, hip', hport',
        ((hstamp _).1 ⟨hlen, htoNat.symm⟩).2, hdcid⟩
      · rw [UInt64.le_iff_toNat_le, htoNat]
        exact hfresh.1
      · rw [htoNat]
        exact hfresh.2
    · rintro ⟨now', stamp, hnow, hfresh, hversion, hip', hport', hstamp', hdcid⟩
      cases hnow
      have hvalue := ((hstamp stamp).2 ⟨by omega, hstamp'⟩).2
      rw [hvalue]
      exact ⟨hversion, ⟨by omega, hip'⟩, by omega, hport', hlen, hfresh, hdcid⟩

def signed (P : TokenCrypto) (secret : TokenKey) (data : Bytes) : Bytes :=
  data ++ P.retryTag secret data

theorem length_clientIpBytes (addr : SocketAddr) :
    (clientIpBytes addr).length = match addr.ip with
      | .v4 _ => 4
      | .v6 _ => 16 := by
  unfold clientIpBytes
  split <;> simp

theorem length_retryTokenData : (retryTokenData addr stamp dcid).length =
      2 + (clientIpBytes addr).length + 2 + 8 + 1 + dcid.len := by
  simp only [retryTokenData, List.length_append, List.length_singleton, length_beBytes,
    ConnectionId.len]
  omega

/-- The accepted tokens: signed data that starts with the fields for the address. Bytes between
the connection ID and the tag are not looked at. -/
theorem validateRetryToken_eq_valid_iff :
    validateRetryToken P token addr secret clock = .ok (.valid dcid) ↔
      ∃ now stamp rest, clock = some now ∧ Fresh stamp now ∧
        token = signed P secret (retryTokenData addr stamp dcid ++ rest) := by
  simp only [validateRetryToken, ← length_clientIpBytes]
  constructor
  · intro h
    by_cases hshape : token.length < 1 + 1 + (clientIpBytes addr).length + 2 + 8 + 1 + tokenTagLen ∨
        token.head? ≠ some tokenKindRetry
    · simp [hshape] at h
    by_cases htag' : token.drop (token.length - tokenTagLen) =
        P.retryTag secret (token.take (token.length - tokenTagLen))
    · simp only [if_neg hshape, htag', ne_eq, not_true_eq_false, if_false, Except.ok.injEq] at h
      obtain ⟨hlen, hkind⟩ := not_or.1 hshape
      rw [not_not, List.head?_eq_getElem?] at hkind
      rw [validateRetryData_eq_valid_iff rfl
        (by rw [List.getElem?_take_of_lt (by omega), hkind])
        (by rw [List.length_take]; omega)] at h
      obtain ⟨now, stamp, hclock, hfresh, rest, hrest⟩ := h
      refine ⟨now, stamp, rest, hclock, hfresh, ?_⟩
      rw [signed, hrest, ← htag', List.take_append_drop]
    · simp [htag'] at h
  · rintro ⟨now, stamp, rest, hclock, hfresh, rfl⟩
    have hprefix := List.prefix_append (retryTokenData addr stamp dcid) rest
    have hlen := hprefix.length_le
    generalize hdata : retryTokenData addr stamp dcid ++ rest = data at *
    have hkind := ((retryTokenData_prefix_iff rfl).1 hprefix).1
    rw [length_retryTokenData] at hlen
    have hsigned : (signed P secret data).length - tokenTagLen = data.length := by
      rw [signed, List.length_append, length_retryTag, Nat.add_sub_cancel]
    have hhead : (signed P secret data).head? = some tokenKindRetry := by
      rw [signed, List.head?_eq_getElem?, List.getElem?_append_left (by omega), hkind]
    rw [if_neg (by rw [hhead]; simp; omega), hsigned, signed, List.take_left, List.drop_left,
      if_neg (by simp), (validateRetryData_eq_valid_iff rfl hkind (by omega)).2
        ⟨now, stamp, hclock, hfresh, hprefix⟩]

/-! ## What a token binds -/

theorem field_unique {x y l : Bytes} (hx : x <+: l) (hy : y <+: l) (hlen : x.length = y.length) :
    x = y := by
  rw [List.prefix_iff_eq_take.1 hx, List.prefix_iff_eq_take.1 hy, hlen]

theorem beBytes_inj {n m : Nat} (hn : n < 256 ^ width) (hm : m < 256 ^ width)
    (h : beBytes width n = beBytes width m) : n = m := by
  rw [← beNat_beBytes hn, h, beNat_beBytes hm]

theorem retryTokenData_inj {stamp' : UInt64}
    (h : retryTokenData other stamp' dcid' <+: retryTokenData addr stamp dcid) :
    addr = other ∧ stamp = stamp' ∧ dcid = dcid' := by
  obtain ⟨-, hversion, hip, hport, hstamp, hlen, hdcid⟩ :=
    (retryTokenData_prefix_iff rfl).1 (List.prefix_refl (retryTokenData addr stamp dcid))
  obtain ⟨-, hversion', hip', hport', hstamp', hlen', hdcid'⟩ := (retryTokenData_prefix_iff rfl).1 h
  rw [hversion, Option.some.injEq] at hversion'
  have hbytes : (clientIpBytes addr).length = (clientIpBytes other).length := by
    unfold clientIpVersion tokenIpVersionV4 tokenIpVersionV6 at hversion'
    rw [length_clientIpBytes, length_clientIpBytes]
    split at hversion' <;> split at hversion' <;> simp_all
  have hbytes' := field_unique hip hip' hbytes
  rw [hbytes] at hport hstamp hlen hdcid
  have hport' := UInt16.toNat_inj.1 (beBytes_inj addr.port.toNat_lt other.port.toNat_lt
    (field_unique hport hport' (by simp)))
  have hstamp' := UInt64.toNat_inj.1 (beBytes_inj stamp.toNat_lt stamp'.toNat_lt
    (field_unique hstamp hstamp' (by simp)))
  have hmax : dcid.len ≤ 20 := dcid.length_le
  have hmax' : dcid'.len ≤ 20 := dcid'.length_le
  rw [hlen, Option.some.injEq] at hlen'
  have hlen' := congrArg UInt8.toNat hlen'
  rw [UInt8.toNat_ofNat', UInt8.toNat_ofNat', Nat.mod_eq_of_lt (by omega),
    Nat.mod_eq_of_lt (by omega)] at hlen'
  have hdcid' := field_unique hdcid hdcid' hlen'
  refine ⟨?_, hstamp', by cases dcid; cases dcid'; simpa using hdcid'⟩
  obtain ⟨ip, port⟩ := addr
  obtain ⟨ip', port'⟩ := other
  cases ip <;> cases ip' <;>
    simp_all [clientIpBytes, Vector.toList_inj]

theorem validate_minted {secret' : TokenKey} {minted : UInt64}
    (h : validateRetryToken P (encodeRetryToken P addr dcid secret (some minted)) other secret'
      clock = .ok (.valid dcid')) :
    addr = other ∧ dcid' = dcid ∧ ∃ now, clock = some now ∧ Fresh minted now := by
  obtain ⟨now, stamp, rest, hclock, hfresh, htoken⟩ := validateRetryToken_eq_valid_iff.1 h
  obtain ⟨hdata, -⟩ := List.append_inj' htoken (by rw [length_retryTag, length_retryTag])
  obtain ⟨rfl, hstamp, rfl⟩ := retryTokenData_inj ⟨rest, hdata.symm⟩
  exact ⟨rfl, rfl, now, hclock, (show minted = stamp from hstamp) ▸ hfresh⟩

/-- A Retry token binds the address of the client, and only for a limited time; an accepted token
has the fields of the address, a time that is not in the future, and the connection ID at its
place. -/
theorem retry_token_binds_address (P : TokenCrypto) (addr : SocketAddr) (dcid : ConnectionId)
    (secret : TokenKey) (minted now : UInt64) (htime : minted ≤ now) :
    let token := encodeRetryToken P addr dcid secret (some minted)
    (now.toNat - minted.toNat ≤ 10 * 1000 →
      validateRetryToken P token addr secret (some now) = .ok (.valid dcid)) ∧
    (10 * 1000 < now.toNat - minted.toNat →
      ∀ dcid', validateRetryToken P token addr secret (some now) ≠ .ok (.valid dcid')) ∧
    (∀ other secret' clock dcid', other ≠ addr →
      validateRetryToken P token other secret' clock ≠ .ok (.valid dcid')) ∧
    ∀ token clock dcid', validateRetryToken P token addr secret clock = .ok (.valid dcid') →
      ∃ now' stamp rest, clock = some now' ∧ stamp ≤ now' ∧
        token = signed P secret (retryTokenData addr stamp dcid' ++ rest) := by
  refine ⟨fun hage => ?_, fun hage dcid' h => ?_, fun other secret' clock dcid' hne h => ?_,
    fun token clock dcid' h => ?_⟩
  · exact validateRetryToken_eq_valid_iff.2
      ⟨now, minted, [], rfl, ⟨htime, hage⟩, by rw [List.append_nil]; rfl⟩
  · obtain ⟨-, -, now', hnow, hfresh⟩ := validate_minted h
    cases hnow
    exact Nat.not_lt.2 hfresh.2 hage
  · exact hne (validate_minted h).1.symm
  · obtain ⟨now', stamp, rest, hclock, hfresh, htoken⟩ := validateRetryToken_eq_valid_iff.1 h
    exact ⟨now', stamp, rest, hclock, hfresh.1, htoken⟩

def echoCrypto : TokenCrypto where
  deriveTokenSubkey secret _ := secret
  hmacSha256 key _ := key

/-- A client on the loopback address, with a token that is a second old. -/
theorem loopback_token_accepted :
    let addr : SocketAddr := ⟨.v4 #v[127, 0, 0, 1], 4433⟩
    let secret : TokenKey := Vector.replicate 32 7
    let dcid : ConnectionId := .fromSlice [1, 2, 3, 4]
    validateRetryToken echoCrypto (encodeRetryToken echoCrypto addr dcid secret (some 5000)) addr
      secret (some 6000) = .ok (.valid dcid) :=
  (retry_token_binds_address echoCrypto ⟨.v4 #v[127, 0, 0, 1], 4433⟩ (.fromSlice [1, 2, 3, 4])
    (Vector.replicate 32 7) 5000 6000 (by decide)).1 (by decide)

end Starfish.Quic
