import NdsRecomp.Library.OptionList
import NdsRecomp.Net.Sanitize
import Mathlib.Data.List.GetD

/-!
`RewriteDhcpDnsOption`: in a DHCP answer the address of the first DNS option is
replaced. `none` is an access outside the packet; the flag is the result.
-/

namespace NdsRecomp.Net

/-- The byte of a packet, where it is known to be there. -/
def byteAt (p : List UInt8) (i : Nat) : UInt8 := p.getD i 0

def be16At (p : List UInt8) (i : Nat) : Nat := rd16 (byteAt p) i

def readBe16 (p : List UInt8) (i : Nat) : Option Nat :=
  p[i]?.bind fun high => p[i + 1]?.bind fun low => some (high.toNat * 256 + low.toNat)

def store (p : List UInt8) (i : Nat) (value : UInt8) : Option (List UInt8) :=
  if i < p.length then some (p.set i value) else none

def writeBe16 (p : List UInt8) (i value : Nat) : Option (List UInt8) :=
  (store p i (UInt8.ofNat (value / 256))).bind fun p => store p (i + 1) (UInt8.ofNat value)

/-- `InternetChecksum` of the `len` bytes from `data` on, its sum in 32 bits. -/
def internetChecksum (p : List UInt8) (data len : Nat) : Option Nat :=
  ((List.range (len / 2)).foldlM
    (fun sum k => (readBe16 p (data + 2 * k)).map fun word => (sum + word) % 2 ^ 32) 0).bind
    fun sum =>
  (if len % 2 = 1 then p[data + len - 1]?.map fun b => (sum + b.toNat * 256) % 2 ^ 32
    else some sum).map fun sum =>
  0xFFFF - foldCarry sum

def dnsByte (dns : UInt32) (k : Nat) : UInt8 := (dns >>> UInt32.ofNat (24 - 8 * k)).toUInt8

/-- One turn of the loop over the addresses of the option. -/
def writeGroup (dns : UInt32) (p : List UInt8) (i : Nat) : Option (List UInt8) :=
  (List.range 4).foldlM (fun p k => store p (i + k) (dnsByte dns k)) p

/-- The option's value lies at `opt`. -/
def sealDns (dns : UInt32) (ip ihl : Nat) (p : List UInt8) (opt len : Nat) : Option (List UInt8) :=
  ((List.range (len / 4)).foldlM (fun p k => writeGroup dns p (opt + 4 * k)) p).bind fun p =>
  (writeBe16 p (ip + 10) 0).bind fun p =>
  (internetChecksum p ip ihl).bind fun sum =>
  (writeBe16 p (ip + 10) sum).bind fun p =>
  writeBe16 p (ip + ihl + 6) 0

/-- The loop over the options. -/
def rewriteDnsFrom (dns : UInt32) (ip ihl stop : Nat) (p : List UInt8) (opt : Nat) :
    Option (List UInt8 × Bool) :=
  if stop ≤ opt then some (p, false)
  else p[opt]?.bind fun code =>
    if code = 0 then rewriteDnsFrom dns ip ihl stop p (opt + 1)
    else if code = 255 then some (p, false)
    else if stop ≤ opt + 1 then some (p, false)
    else p[opt + 1]?.bind fun len =>
      if stop < opt + 2 + len.toNat then some (p, false)
      else if code = 6 ∧ 4 ≤ len.toNat then
        (sealDns dns ip ihl p (opt + 2) len.toNat).map fun p => (p, true)
      else rewriteDnsFrom dns ip ihl stop p (opt + 2 + len.toNat)
termination_by stop - opt

/-- A packet is not null. -/
def rewriteDhcpDnsOption (p : List UInt8) (dns : UInt32) : Option (List UInt8 × Bool) :=
  if dns = 0 then some (p, false)
  else if p.length < 14 + 20 + 8 + 240 then some (p, false)
  else (readBe16 p 12).bind fun ethertype =>
  if ethertype ≠ 0x0800 then some (p, false)
  else p[14]?.bind fun first =>
  let version := (first >>> 4).toNat
  let ihl := (first &&& 0x0F).toNat * 4
  if version ≠ 4 ∨ ihl < 20 ∨ p.length < 14 + ihl + 8 + 240 then some (p, false)
  else p[14 + 9]?.bind fun protocol =>
  if protocol ≠ 17 then some (p, false)
  else
  let udp := 14 + ihl
  (readBe16 p udp).bind fun srcPort =>
  (readBe16 p (udp + 2)).bind fun dstPort =>
  if srcPort ≠ 67 ∨ dstPort ≠ 68 then some (p, false)
  else (readBe16 p (udp + 4)).bind fun udpLen =>
  if udpLen < 8 + 240 ∨ p.length < udp + udpLen then some (p, false)
  else
  let dhcp := udp + 8
  p[dhcp + 236]?.bind fun c0 => p[dhcp + 237]?.bind fun c1 =>
  p[dhcp + 238]?.bind fun c2 => p[dhcp + 239]?.bind fun c3 =>
  if c0 ≠ 0x63 ∨ c1 ≠ 0x82 ∨ c2 ≠ 0x53 ∨ c3 ≠ 0x63 then some (p, false)
  else rewriteDnsFrom dns 14 ihl (udp + udpLen) p (dhcp + 240)

/-! ### What the packet has to be -/

def headerLength (p : List UInt8) : Nat := (byteAt p 14 &&& 0x0F).toNat * 4

def udpAt (p : List UInt8) : Nat := 14 + headerLength p

def udpEnd (p : List UInt8) : Nat := udpAt p + be16At p (udpAt p + 4)

/-- A DHCP message in a UDP datagram from port 67 to port 68 over IPv4. -/
structure DhcpAnswer (p : List UInt8) : Prop where
  size : 14 + 20 + 8 + 240 ≤ p.length
  ipv4 : be16At p 12 = 0x0800 ∧ (byteAt p 14 >>> 4).toNat = 4
  header : 20 ≤ headerLength p ∧ 14 + headerLength p + 8 + 240 ≤ p.length
  udp : byteAt p (14 + 9) = 17
  ports : be16At p (udpAt p) = 67 ∧ be16At p (udpAt p + 2) = 68
  udpLength : 8 + 240 ≤ be16At p (udpAt p + 4) ∧ udpEnd p ≤ p.length
  cookie : byteAt p (udpAt p + 8 + 236) = 0x63 ∧ byteAt p (udpAt p + 8 + 237) = 0x82 ∧
    byteAt p (udpAt p + 8 + 238) = 0x53 ∧ byteAt p (udpAt p + 8 + 239) = 0x63

/-- The options, from behind the cookie to the end of the datagram. -/
def dhcpOptions (p : List UInt8) : List UInt8 := (p.take (udpEnd p)).drop (udpAt p + 8 + 240)

/-- The header's words sum to zero in ones' complement. -/
def HeaderVerifies (p : List UInt8) : Prop :=
  ((List.range (headerLength p / 2)).map fun k => be16At p (14 + 2 * k)).sum % 0xFFFF = 0 ∧
    internetChecksum p 14 (headerLength p) = some 0

/-- `p'` is `p` with the groups of the value at `opt` replaced, the header's
checksum made to verify, and the datagram's cleared. -/
structure DnsRewritten (dns : UInt32) (p p' : List UInt8) (opt len : Nat) : Prop where
  group : ∀ i < len / 4 * 4, byteAt p' (opt + i) = dnsByte dns (i % 4)
  udpChecksum : byteAt p' (udpAt p + 6) = 0 ∧ byteAt p' (udpAt p + 7) = 0
  header : HeaderVerifies p'
  same : ∀ i, ¬ (opt ≤ i ∧ i < opt + len / 4 * 4) → i ≠ 14 + 10 → i ≠ 14 + 11 →
    i ≠ udpAt p + 6 → i ≠ udpAt p + 7 → byteAt p' i = byteAt p i

/-! ### Accesses inside the packet -/

section Access

variable {p : List UInt8} {i : Nat}

theorem getElem?_eq_byteAt (h : i < p.length) : p[i]? = some (byteAt p i) := by
  rw [byteAt, List.getD_eq_getElem _ _ h, List.getElem?_eq_getElem h]

theorem readBe16_eq (h : i + 1 < p.length) : readBe16 p i = some (be16At p i) := by
  unfold readBe16
  rw [getElem?_eq_byteAt (by omega : i < p.length), getElem?_eq_byteAt h]
  rfl

theorem be16At_lt (p : List UInt8) (i : Nat) : be16At p i < 65536 := by
  have hhigh := (byteAt p i).toNat_lt
  have hlow := (byteAt p (i + 1)).toNat_lt
  unfold be16At rd16
  omega

/-- A write that succeeds: the packet keeps its length and holds `f`. -/
def Writes (p : List UInt8) (write : Option (List UInt8)) (f : Nat → UInt8) : Prop :=
  ∃ p', write = some p' ∧ p'.length = p.length ∧ byteAt p' = f

theorem writes_store (value : UInt8) (h : i < p.length) :
    Writes p (store p i value) (Function.update (byteAt p) i value) := by
  refine ⟨p.set i value, if_pos h, List.length_set, ?_⟩
  funext j
  unfold byteAt
  by_cases hj : j = i
  · rw [hj, Function.update_self, List.getD_eq_getElem _ _ (by rwa [List.length_set]),
      List.getElem_set_self]
  · rw [Function.update_of_ne hj, List.getD_eq_getElem?_getD, List.getD_eq_getElem?_getD,
      List.getElem?_set_ne (Ne.symm hj)]

theorem Writes.bind {write : Option (List UInt8)} {next : List UInt8 → Option (List UInt8)}
    {f g : Nat → UInt8} (h : Writes p write f)
    (hnext : ∀ p', p'.length = p.length → byteAt p' = f → Writes p' (next p') g) :
    Writes p (write.bind next) g := by
  obtain ⟨p', rfl, hlength, hbytes⟩ := h
  obtain ⟨p'', hwrite, hlength', hbytes'⟩ := hnext p' hlength hbytes
  exact ⟨p'', hwrite, hlength'.trans hlength, hbytes'⟩

/-- The bytes of a halfword over a packet. -/
def put16 (f : Nat → UInt8) (i value : Nat) : Nat → UInt8 :=
  Function.update (Function.update f i (UInt8.ofNat (value / 256))) (i + 1) (UInt8.ofNat value)

theorem writes_writeBe16 (value : Nat) (h : i + 1 < p.length) :
    Writes p (writeBe16 p i value) (put16 (byteAt p) i value) := by
  refine (writes_store _ (by omega)).bind fun p' hlength hbytes => ?_
  rw [put16, ← hbytes]
  exact writes_store _ (by omega)

theorem put16_of_ne (f : Nat → UInt8) {i j : Nat} (value : Nat) (h : j ≠ i) (hnext : j ≠ i + 1) :
    put16 f i value j = f j := by
  unfold put16
  rw [Function.update_of_ne hnext, Function.update_of_ne h]

theorem put16_self (f : Nat → UInt8) (i value : Nat) :
    put16 f i value i = UInt8.ofNat (value / 256) := by
  unfold put16
  rw [Function.update_of_ne (by omega), Function.update_self]

theorem put16_next (f : Nat → UInt8) (i value : Nat) :
    put16 f i value (i + 1) = UInt8.ofNat value := Function.update_self ..

theorem rd16_put16 (f : Nat → UInt8) (i : Nat) {value : Nat} (h : value < 65536) :
    rd16 (put16 f i value) i = value := by
  unfold rd16
  rw [put16_self, put16_next, UInt8.toNat_ofNat', UInt8.toNat_ofNat']
  omega

/-- `n` groups of the address over a packet, from `opt` on. -/
def putGroups (dns : UInt32) (f : Nat → UInt8) (opt n : Nat) : Nat → UInt8 := fun j =>
  if opt ≤ j ∧ j < opt + 4 * n then dnsByte dns ((j - opt) % 4) else f j

theorem putGroups_of_not (dns : UInt32) (f : Nat → UInt8) {opt n j : Nat}
    (h : ¬ (opt ≤ j ∧ j < opt + 4 * n)) : putGroups dns f opt n j = f j := if_neg h

theorem writes_group (dns : UInt32) {n : Nat} (hn : n ≤ 4) (h : i + 4 ≤ p.length) :
    Writes p ((List.range n).foldlM (fun p k => store p (i + k) (dnsByte dns k)) p)
      (fun j => if i ≤ j ∧ j < i + n then dnsByte dns (j - i) else byteAt p j) := by
  induction n with
  | zero =>
      refine ⟨p, rfl, rfl, funext fun j => ?_⟩
      rw [if_neg (by omega)]
  | succ n ih =>
      rw [List.range_succ, List.foldlM_append]
      refine (ih (by omega)).bind fun p' hlength hbytes => ?_
      obtain ⟨p'', hwrite, hlength', hbytes'⟩ :=
        writes_store (dnsByte dns n) (by omega : i + n < p'.length)
      refine ⟨p'', ?_, hlength', ?_⟩
      · rw [List.foldlM_cons, hwrite]
        rfl
      · rw [hbytes', hbytes]
        funext j
        by_cases hj : j = i + n
        · rw [hj, Function.update_self, if_pos (by omega), Nat.add_sub_cancel_left]
        · rw [Function.update_of_ne hj]
          by_cases hin : i ≤ j ∧ j < i + n
          · rw [if_pos hin, if_pos (by omega)]
          · rw [if_neg hin, if_neg (by omega)]

theorem writes_groups (dns : UInt32) {opt n : Nat} (h : opt + 4 * n ≤ p.length) :
    Writes p ((List.range n).foldlM (fun p k => writeGroup dns p (opt + 4 * k)) p)
      (putGroups dns (byteAt p) opt n) := by
  induction n with
  | zero =>
      refine ⟨p, rfl, rfl, funext fun j => ?_⟩
      exact (putGroups_of_not dns _ (by omega)).symm
  | succ n ih =>
      rw [List.range_succ, List.foldlM_append]
      refine (ih (by omega)).bind fun p' hlength hbytes => ?_
      obtain ⟨p'', hwrite, hlength', hbytes'⟩ :=
        writes_group dns (le_refl 4) (by omega : opt + 4 * n + 4 ≤ p'.length)
      refine ⟨p'', ?_, hlength', ?_⟩
      · rw [List.foldlM_cons]
        unfold writeGroup
        rw [hwrite]
        rfl
      · rw [hbytes', hbytes]
        funext j
        unfold putGroups
        by_cases hlast : opt + 4 * n ≤ j ∧ j < opt + 4 * n + 4
        · have hindex : j - (opt + 4 * n) = (j - opt) % 4 := by omega
          rw [if_pos hlast, if_pos (by omega), hindex]
        · rw [if_neg hlast]
          by_cases hin : opt ≤ j ∧ j < opt + 4 * n
          · rw [if_pos hin, if_pos (by omega)]
          · rw [if_neg hin, if_neg (by omega)]

end Access

/-! ### The header checksum -/

theorem foldCarry_spec (sum : Nat) :
    foldCarry sum % 65535 = sum % 65535 ∧ foldCarry sum < 65536 ∧
      (foldCarry sum = 0 ↔ sum = 0) := by
  induction sum using foldCarry.induct with
  | case1 sum h =>
      rw [foldCarry, if_pos h]
      omega
  | case2 sum h ih =>
      rw [foldCarry, if_neg h]
      obtain ⟨hmod, hlt, hzero⟩ := ih
      refine ⟨by omega, hlt, hzero.trans ?_⟩
      omega

/-- The words of a header. -/
def words (f : Nat → UInt8) (data n : Nat) : List Nat :=
  (List.range n).map fun k => rd16 f (data + 2 * k)

theorem sum_words_lt (p : List UInt8) (data n : Nat) :
    (words (byteAt p) data n).sum ≤ n * 65535 := by
  have hbound := List.sum_le_card_nsmul (words (byteAt p) data n) 65535 fun word hword => by
    obtain ⟨k, _, rfl⟩ := List.mem_map.mp hword
    exact Nat.le_of_lt_succ (be16At_lt p (data + 2 * k))
  simpa [words] using hbound

theorem internetChecksum_eq {p : List UInt8} {data n : Nat} (hn : n ≤ 65536)
    (h : data + 2 * n ≤ p.length) :
    internetChecksum p data (2 * n) =
      some (0xFFFF - foldCarry (words (byteAt p) data n).sum) := by
  have hloop (m : Nat) (hm : m ≤ n) : (List.range m).foldlM
      (fun sum k => (readBe16 p (data + 2 * k)).map fun word => (sum + word) % 2 ^ 32) 0 =
        some (words (byteAt p) data m).sum := by
    induction m with
    | zero => rfl
    | succ m ih =>
        have hlt := sum_words_lt p data (m + 1)
        have hsplit : words (byteAt p) data (m + 1) =
            words (byteAt p) data m ++ [be16At p (data + 2 * m)] := by
          unfold words
          rw [List.range_succ, List.map_append]
          rfl
        rw [hsplit, List.sum_append, List.sum_singleton] at hlt ⊢
        rw [List.range_succ, List.foldlM_append, ih (by omega)]
        change Option.bind (Option.map _ (readBe16 p (data + 2 * m))) some = _
        rw [readBe16_eq (by omega), Option.map_some, Option.bind_some, Nat.mod_eq_of_lt (by omega)]
  have heven : ¬ 2 * n % 2 = 1 := by omega
  unfold internetChecksum
  rw [Nat.mul_div_cancel_left n (by omega), hloop n (le_refl n), Option.bind_some, if_neg heven]
  rfl

/-- A header whose checksum is written over the sum of the rest. -/
theorem sum_words_put16 (f : Nat → UInt8) (data : Nat) {n value : Nat} (hn : 6 ≤ n)
    (hvalue : value < 65536) :
    (words (put16 f (data + 10) value) data n).sum =
      (words (put16 f (data + 10) 0) data n).sum + value := by
  obtain ⟨m, rfl⟩ := Nat.exists_eq_add_of_le hn
  have hother (value k : Nat) (hk : k ≠ 5) :
      rd16 (put16 f (data + 10) value) (data + 2 * k) = rd16 f (data + 2 * k) := by
    unfold rd16
    rw [put16_of_ne _ _ (by omega) (by omega), put16_of_ne _ _ (by omega) (by omega)]
  have hwords (value : Nat) (hvalue : value < 65536) :
      words (put16 f (data + 10) value) data (6 + m) =
        (List.range 5).map (fun k => rd16 f (data + 2 * k)) ++
          (value :: (List.range m).map fun k => rd16 f (data + 2 * (6 + k))) := by
    have hrange : List.range (6 + m) = List.range 5 ++ (5 :: (List.range m).map (6 + ·)) := by
      rw [List.range_add]
      rfl
    unfold words
    rw [hrange, List.map_append, List.map_cons, List.map_map, rd16_put16 f _ hvalue]
    refine congrArg₂ _ (List.map_congr_left fun k hk => ?_)
      (congrArg _ (List.map_congr_left fun k _ => hother value (6 + k) (by omega)))
    have hk := List.mem_range.mp hk
    exact hother value k (by omega)
  rw [hwords value hvalue, hwords 0 (by omega), List.sum_append, List.sum_append, List.sum_cons,
    List.sum_cons]
  omega

/-- What the seal writes. -/
def sealedBytes (dns : UInt32) (ip ihl : Nat) (f : Nat → UInt8) (opt len : Nat) : Nat → UInt8 :=
  let f := putGroups dns f opt (len / 4)
  let f := put16 f (ip + 10) 0
  let f := put16 f (ip + 10) (0xFFFF - foldCarry (words f ip (ihl / 2)).sum)
  put16 f (ip + ihl + 6) 0

theorem writes_sealDns (dns : UInt32) {p : List UInt8} {ip n opt len : Nat} (hn : 6 ≤ n)
    (hsmall : n ≤ 65536) (hheader : ip + 2 * n + 8 ≤ p.length) (hvalue : opt + len ≤ p.length) :
    Writes p (sealDns dns ip (2 * n) p opt len)
      (sealedBytes dns ip (2 * n) (byteAt p) opt len) := by
  have hhalf : 2 * n / 2 = n := Nat.mul_div_cancel_left n (by omega)
  unfold sealDns sealedBytes
  dsimp only
  rw [hhalf]
  refine (writes_groups dns (by omega)).bind fun p₁ h₁ hbytes₁ => ?_
  refine (writes_writeBe16 0 (by omega)).bind fun p₂ h₂ hbytes₂ => ?_
  rw [internetChecksum_eq hsmall (by omega), Option.bind_some]
  rw [hbytes₁] at hbytes₂
  rw [← hbytes₂]
  refine (writes_writeBe16 _ (by omega)).bind fun p₃ h₃ hbytes₃ => ?_
  rw [← hbytes₃]
  exact writes_writeBe16 0 (by omega)

theorem put16_put16 (f : Nat → UInt8) (i value value' : Nat) :
    put16 (put16 f i value) i value' = put16 f i value' := by
  funext j
  by_cases hnext : j = i + 1
  · rw [hnext, put16_next, put16_next]
  · by_cases hj : j = i
    · rw [hj, put16_self, put16_self]
    · rw [put16_of_ne _ _ hj hnext, put16_of_ne _ _ hj hnext, put16_of_ne _ _ hj hnext]

theorem words_congr {f g : Nat → UInt8} {data n : Nat}
    (h : ∀ i, data ≤ i → i < data + 2 * n → f i = g i) : words f data n = words g data n := by
  refine List.map_congr_left fun k hk => ?_
  have hk := List.mem_range.mp hk
  unfold rd16
  rw [h _ (by omega) (by omega), h _ (by omega) (by omega)]

/-- The sum behind the seal: all ones. -/
theorem sealed_sum (dns : UInt32) (f : Nat → UInt8) {ip n opt len : Nat} (hn : 6 ≤ n) :
    foldCarry (words (sealedBytes dns ip (2 * n) f opt len) ip n).sum = 65535 := by
  let g := putGroups dns f opt (len / 4)
  let sum := (words (put16 g (ip + 10) 0) ip n).sum
  have hhalf : 2 * n / 2 = n := Nat.mul_div_cancel_left n (by omega)
  have hsealed : words (sealedBytes dns ip (2 * n) f opt len) ip n =
      words (put16 g (ip + 10) (0xFFFF - foldCarry sum)) ip n := by
    unfold sealedBytes
    dsimp only
    rw [hhalf, put16_put16]
    exact words_congr fun i hlow hhigh => put16_of_ne _ _ (by omega) (by omega)
  have hsum := sum_words_put16 g ip hn (by omega : 0xFFFF - foldCarry sum < 65536)
  rw [hsealed, hsum]
  obtain ⟨hmod, hlt, hzero⟩ := foldCarry_spec sum
  obtain ⟨hmod', hlt', hzero'⟩ := foldCarry_spec (sum + (0xFFFF - foldCarry sum))
  change foldCarry (sum + (0xFFFF - foldCarry sum)) = 65535
  omega

theorem headerLength_eq (p : List UInt8) :
    headerLength p = 2 * ((byteAt p 14 &&& 0x0F).toNat * 2) ∧
      (byteAt p 14 &&& 0x0F).toNat * 2 ≤ 30 := by
  have hmask : (byteAt p 14 &&& 0x0F).toNat = (byteAt p 14).toNat % 16 := by
    rw [UInt8.toNat_and]
    exact Nat.and_two_pow_sub_one_eq_mod _ 4
  unfold headerLength
  omega

/-- The seal of an answer, its option behind the header and the datagram's. -/
theorem sealDns_rewritten (dns : UInt32) {p : List UInt8} (h : DhcpAnswer p) {opt len : Nat}
    (hopt : udpAt p + 8 ≤ opt) (hvalue : opt + len ≤ p.length) :
    ∃ p', sealDns dns 14 (headerLength p) p opt len = some p' ∧ p'.length = p.length ∧
      DnsRewritten dns p p' opt len := by
  obtain ⟨hlength, hsmall⟩ := headerLength_eq p
  obtain ⟨hlow, hroom⟩ := h.header
  obtain ⟨n, hn⟩ : ∃ n, n = (byteAt p 14 &&& 0x0F).toNat * 2 := ⟨_, rfl⟩
  rw [← hn] at hlength hsmall
  have hudp : udpAt p = 14 + 2 * n := by rw [udpAt, hlength]
  obtain ⟨p', hseal, hsize, hbytes⟩ : Writes p (sealDns dns 14 (2 * n) p opt len)
      (sealedBytes dns 14 (2 * n) (byteAt p) opt len) :=
    writes_sealDns dns (by omega) (by omega) (by omega) hvalue
  have hfar (i : Nat) (h10 : i ≠ 14 + 10) (h11 : i ≠ 14 + 11) (h6 : i ≠ udpAt p + 6)
      (h7 : i ≠ udpAt p + 7) :
      byteAt p' i = putGroups dns (byteAt p) opt (len / 4) i := by
    rw [hbytes]
    unfold sealedBytes
    rw [put16_of_ne _ _ (by omega) (by omega), put16_of_ne _ _ (by omega) (by omega),
      put16_of_ne _ _ (by omega) (by omega)]
  have hsame (i : Nat) (hout : ¬ (opt ≤ i ∧ i < opt + len / 4 * 4)) (h10 : i ≠ 14 + 10)
      (h11 : i ≠ 14 + 11) (h6 : i ≠ udpAt p + 6) (h7 : i ≠ udpAt p + 7) :
      byteAt p' i = byteAt p i := by
    rw [hfar i h10 h11 h6 h7, putGroups_of_not dns _ (by omega)]
  have hlength' : headerLength p' = 2 * n := by
    rw [← hlength, headerLength, headerLength, hsame 14 (by omega) (by omega) (by omega) (by omega)
      (by omega)]
  have hfold : foldCarry (words (sealedBytes dns 14 (2 * n) (byteAt p) opt len) 14 n).sum = 65535 :=
    sealed_sum dns (byteAt p) (by omega)
  rw [← hbytes] at hfold
  refine ⟨p', hlength ▸ hseal, hsize, ?_, ⟨?_, ?_⟩, ⟨?_, ?_⟩, hsame⟩
  · intro i hi
    rw [hfar _ (by omega) (by omega) (by omega) (by omega), putGroups, if_pos (by omega),
      Nat.add_sub_cancel_left]
  · rw [hudp, hbytes]
    exact put16_self _ _ 0
  · rw [hudp, hbytes]
    exact put16_next _ _ 0
  · have hmod := (foldCarry_spec (words (byteAt p') 14 n).sum).1
    rw [hfold] at hmod
    rw [hlength', Nat.mul_div_cancel_left n (by omega)]
    exact hmod.symm
  · rw [hlength', internetChecksum_eq (by omega) (by omega), hfold]

/-! ### The options -/

open Library.OptionList

section Region

variable (p : List UInt8) (stop : Nat)

/-- The bytes that the option loop has in front of it. -/
def region (opt : Nat) : List UInt8 := (p.take stop).drop opt

variable {p stop} {opt : Nat}

theorem region_nil (h : stop ≤ opt) : region p stop opt = [] :=
  List.drop_eq_nil_of_le ((List.length_take_le _ _).trans h)

theorem region_cons (hstop : stop ≤ p.length) (h : opt < stop) :
    region p stop opt = byteAt p opt :: region p stop (opt + 1) := by
  have hlt : opt < (p.take stop).length := by
    rw [List.length_take]
    omega
  have hbyte : (p.take stop)[opt] = byteAt p opt := by
    rw [List.getElem_take, byteAt, List.getD_eq_getElem _ _ (by omega)]
  unfold region
  rw [List.drop_eq_getElem_cons hlt, hbyte]

theorem region_length (hstop : stop ≤ p.length) : (region p stop opt).length = stop - opt := by
  unfold region
  rw [List.length_drop, List.length_take]
  omega

theorem region_add (hstop : stop ≤ p.length) {n : Nat} (h : opt + n ≤ stop) :
    ∃ v, v.length = n ∧ region p stop opt = v ++ region p stop (opt + n) := by
  refine ⟨(region p stop opt).take n, ?_, ?_⟩
  · rw [List.length_take, region_length hstop]
    omega
  · unfold region
    rw [← List.drop_drop, List.take_append_drop]

end Region

/-- What the option loop does from `opt` on: the first long DNS option is
rewritten, or there is none and the packet is as it was. -/
structure DnsHit (dns : UInt32) (p : List UInt8) (opt : Nat)
    (result : Option (List UInt8 × Bool)) : Prop where
  hit : ∃ front value rest, FirstLong 6 4 (region p (udpEnd p) opt) front value rest ∧
    ∃ p', result = some (p', true) ∧ p'.length = p.length ∧
      DnsRewritten dns p p' (opt + (front.flatMap Item.encode).length + 2) value.length

theorem DnsHit.cons {dns : UInt32} {p : List UInt8} {opt next : Nat}
    {result : Option (List UInt8 × Bool)} (h : DnsHit dns p next result) (item : Item)
    (hwf : item.WellFormed) (hshort : ¬ item.IsLong 6 4)
    (hregion : region p (udpEnd p) opt = item.encode ++ region p (udpEnd p) next)
    (hnext : next = opt + item.encode.length) : DnsHit dns p opt result := by
  obtain ⟨front, value, rest, hfirst, p', hresult, hlength, hrewritten⟩ := h.hit
  refine ⟨item :: front, value, rest, hregion ▸ hfirst.cons hwf hshort, p', hresult, hlength, ?_⟩
  rw [List.flatMap_cons, List.length_append, ← Nat.add_assoc, ← hnext]
  exact hrewritten

theorem rewriteDnsFrom_spec (dns : UInt32) {p : List UInt8} (h : DhcpAnswer p) (opt : Nat)
    (hopt : udpAt p + 8 ≤ opt) :
    (¬ HasLong 6 4 (region p (udpEnd p) opt) ∧
        rewriteDnsFrom dns 14 (headerLength p) (udpEnd p) p opt = some (p, false)) ∨
      DnsHit dns p opt (rewriteDnsFrom dns 14 (headerLength p) (udpEnd p) p opt) := by
  have hstop := h.udpLength.2
  induction hleft : udpEnd p - opt using Nat.strongRecOn generalizing opt with
  | ind left ih =>
      rw [rewriteDnsFrom]
      by_cases hend : udpEnd p ≤ opt
      · rw [if_pos hend, region_nil hend]
        exact .inl ⟨not_hasLong_nil, rfl⟩
      rw [if_neg hend, getElem?_eq_byteAt (by omega), Option.bind_some]
      have hregion := region_cons hstop (Nat.lt_of_not_le hend)
      by_cases hpad : byteAt p opt = 0
      · rw [if_pos hpad]
        rw [hpad] at hregion
        obtain ⟨hnone, hsame⟩ | hhit := ih _ (by omega) (opt + 1) (by omega) rfl
        · rw [hregion, hasLong_pad (by decide)]
          exact .inl ⟨hnone, hsame⟩
        · exact .inr (hhit.cons .pad trivial id hregion rfl)
      rw [if_neg hpad]
      by_cases hlast : byteAt p opt = 255
      · rw [if_pos hlast, hregion, hlast]
        exact .inl ⟨not_hasLong_end (by decide), rfl⟩
      rw [if_neg hlast]
      by_cases hcut : udpEnd p ≤ opt + 1
      · rw [if_pos hcut, hregion, region_nil hcut]
        refine .inl ⟨fun hlong => ?_, rfl⟩
        obtain ⟨_, _, hcons, _⟩ := hlong.room hpad
        cases hcons
      rw [if_neg hcut, getElem?_eq_byteAt (by omega), Option.bind_some]
      rw [region_cons hstop (Nat.lt_of_not_le hcut)] at hregion
      by_cases hover : udpEnd p < opt + 2 + (byteAt p (opt + 1)).toNat
      · rw [if_pos hover, hregion]
        refine .inl ⟨fun hlong => ?_, rfl⟩
        obtain ⟨_, _, hcons, hroom⟩ := hlong.room hpad
        obtain ⟨rfl, rfl⟩ := List.cons.inj hcons
        rw [region_length hstop] at hroom
        omega
      rw [if_neg hover]
      obtain ⟨v, hv, hrest⟩ := region_add hstop (Nat.le_of_not_lt hover)
      rw [hrest] at hregion
      have hlt := (byteAt p (opt + 1)).toNat_lt
      have hencode : (Item.value (byteAt p opt) v).encode ++
          region p (udpEnd p) (opt + 2 + (byteAt p (opt + 1)).toNat) =
            byteAt p opt :: byteAt p (opt + 1) ::
              (v ++ region p (udpEnd p) (opt + 2 + (byteAt p (opt + 1)).toNat)) := by
        rw [Item.encode, hv, UInt8.ofNat_toNat]
        rfl
      by_cases hdns : byteAt p opt = 6 ∧ 4 ≤ (byteAt p (opt + 1)).toNat
      · rw [if_pos hdns]
        obtain ⟨p', hseal, hlength, hrewritten⟩ := sealDns_rewritten dns h
          (by omega : udpAt p + 8 ≤ opt + 2)
          (by omega : opt + 2 + (byteAt p (opt + 1)).toNat ≤ p.length)
        refine .inr ⟨[], v, region p (udpEnd p) (opt + 2 + (byteAt p (opt + 1)).toNat), ⟨?_,
          fun _ hmem => (List.not_mem_nil hmem).elim, fun _ hmem => (List.not_mem_nil hmem).elim,
          by omega, by omega⟩,
          p', ?_, hlength, ?_⟩
        · rw [hregion, ← hencode, hdns.1]
          rfl
        · rw [hseal]
          rfl
        · rw [hv]
          exact hrewritten
      · rw [if_neg hdns]
        rw [← hv] at hdns
        obtain ⟨hnone, hsame⟩ | hhit :=
          ih _ (by omega) (opt + 2 + (byteAt p (opt + 1)).toNat) (by omega) rfl
        · rw [hregion, hasLong_skip hpad hlast hv hdns]
          exact .inl ⟨hnone, hsame⟩
        · refine .inr (hhit.cons (.value (byteAt p opt) v) ⟨hpad, hlast, by omega⟩ hdns
            (hregion.trans hencode.symm) ?_)
          simp only [Item.encode, List.length_cons, hv]
          omega

/-! ### The packet -/

/-- The checks in front of the options. -/
theorem rewriteDhcpDnsOption_eq {dns : UInt32} (hdns : dns ≠ 0) (p : List UInt8) :
    DhcpAnswer p ∧ rewriteDhcpDnsOption p dns =
        rewriteDnsFrom dns 14 (headerLength p) (udpEnd p) p (udpAt p + 8 + 240) ∨
      ¬ DhcpAnswer p ∧ rewriteDhcpDnsOption p dns = some (p, false) := by
  unfold rewriteDhcpDnsOption
  rw [if_neg hdns]
  by_cases hsize : p.length < 14 + 20 + 8 + 240
  · rw [if_pos hsize]
    exact .inr ⟨fun h => Nat.not_lt.mpr h.size hsize, rfl⟩
  rw [if_neg hsize, readBe16_eq (by omega), Option.bind_some]
  by_cases htype : be16At p 12 ≠ 0x0800
  · rw [if_pos htype]
    exact .inr ⟨fun h => htype h.ipv4.1, rfl⟩
  rw [if_neg htype, getElem?_eq_byteAt (by omega), Option.bind_some]
  have hihl : (byteAt p 14 &&& 0x0F).toNat * 4 = headerLength p := rfl
  dsimp only
  rw [hihl]
  by_cases hheader : (byteAt p 14 >>> 4).toNat ≠ 4 ∨ headerLength p < 20 ∨
      p.length < 14 + headerLength p + 8 + 240
  · rw [if_pos hheader]
    refine .inr ⟨fun h => ?_, rfl⟩
    obtain ⟨hlow, hroom⟩ := h.header
    have := h.ipv4.2
    omega
  rw [if_neg hheader, getElem?_eq_byteAt (by omega), Option.bind_some]
  by_cases hprotocol : byteAt p (14 + 9) ≠ 17
  · rw [if_pos hprotocol]
    exact .inr ⟨fun h => hprotocol h.udp, rfl⟩
  have hudp : 14 + headerLength p = udpAt p := rfl
  have hroom : udpAt p + 8 + 240 ≤ p.length := by
    unfold udpAt
    omega
  rw [if_neg hprotocol, hudp, readBe16_eq (by omega), Option.bind_some, readBe16_eq (by omega),
    Option.bind_some]
  by_cases hports : be16At p (udpAt p) ≠ 67 ∨ be16At p (udpAt p + 2) ≠ 68
  · rw [if_pos hports]
    refine .inr ⟨fun h => ?_, rfl⟩
    have := h.ports
    omega
  rw [if_neg hports, readBe16_eq (by omega), Option.bind_some]
  have hend : udpAt p + be16At p (udpAt p + 4) = udpEnd p := rfl
  rw [hend]
  by_cases hlength : be16At p (udpAt p + 4) < 8 + 240 ∨ p.length < udpEnd p
  · rw [if_pos hlength]
    refine .inr ⟨fun h => ?_, rfl⟩
    have := h.udpLength
    omega
  rw [if_neg hlength, getElem?_eq_byteAt (by omega), getElem?_eq_byteAt (by omega),
    getElem?_eq_byteAt (by omega), getElem?_eq_byteAt (by omega)]
  simp only [Option.bind_some]
  by_cases hcookie : byteAt p (udpAt p + 8 + 236) ≠ 0x63 ∨ byteAt p (udpAt p + 8 + 237) ≠ 0x82 ∨
      byteAt p (udpAt p + 8 + 238) ≠ 0x53 ∨ byteAt p (udpAt p + 8 + 239) ≠ 0x63
  · rw [if_pos hcookie]
    refine .inr ⟨fun h => ?_, rfl⟩
    obtain ⟨h0, h1, h2, h3⟩ := h.cookie
    obtain hne | hne | hne | hne := hcookie
    · exact hne h0
    · exact hne h1
    · exact hne h2
    · exact hne h3
  · rw [if_neg hcookie]
    simp only [not_or, ne_eq, not_not] at htype hheader hprotocol hports hcookie
    exact .inl ⟨⟨by omega, ⟨htype, hheader.1⟩, ⟨by omega, by omega⟩, hprotocol, hports,
      ⟨by omega, by omega⟩, hcookie⟩, rfl⟩

/-- The rewriter reads and writes inside the packet and returns. It hits exactly
the DHCP answers with a DNS option of four bytes or more, of which it rewrites
the first one; otherwise the packet is as it was. -/
theorem rewriteDhcpDnsOption_exact (p : List UInt8) (dns : UInt32) (hdns : dns ≠ 0) :
    ∃ p' hit, rewriteDhcpDnsOption p dns = some (p', hit) ∧ p'.length = p.length ∧
      (hit = true ↔ DhcpAnswer p ∧ HasLong 6 4 (dhcpOptions p)) ∧
      (hit = false → p' = p) ∧
      (hit = true → ∃ front value rest, FirstLong 6 4 (dhcpOptions p) front value rest ∧
        DnsRewritten dns p p'
          (udpAt p + 8 + 240 + (front.flatMap Item.encode).length + 2) value.length) := by
  obtain ⟨h, heq⟩ | ⟨hnot, heq⟩ := rewriteDhcpDnsOption_eq hdns p
  · rw [heq]
    obtain ⟨hnone, hsame⟩ | ⟨front, value, rest, hfirst, p', hresult, hlength, hrewritten⟩ :=
      rewriteDnsFrom_spec dns h (udpAt p + 8 + 240) (by omega)
    · exact ⟨p, false, hsame, rfl,
        ⟨fun htrue => (nomatch htrue), fun hlong => absurd hlong.2 hnone⟩, fun _ => rfl,
        fun htrue => (nomatch htrue)⟩
    · exact ⟨p', true, hresult, hlength, ⟨fun _ => ⟨h, front, value, rest, hfirst⟩, fun _ => rfl⟩,
        fun hfalse => (nomatch hfalse), fun _ => ⟨front, value, rest, hfirst, hrewritten⟩⟩
  · exact ⟨p, false, heq, rfl, ⟨fun htrue => (nomatch htrue), fun hlong => absurd hlong.1 hnot⟩,
      fun _ => rfl, fun htrue => (nomatch htrue)⟩

/-- An answer whose only option is a DNS server. -/
def dnsAnswer : List UInt8 :=
  List.replicate 12 0 ++ [0x08, 0x00] ++ [0x45] ++ List.replicate 8 0 ++ [17] ++
    List.replicate 10 0 ++ [0, 67, 0, 68, 0, 254, 0, 0] ++ List.replicate 236 0 ++
    [0x63, 0x82, 0x53, 0x63] ++ [6, 4, 192, 168, 0, 1]

theorem dnsAnswer_rewritten :
    ∃ p', rewriteDhcpDnsOption dnsAnswer 0x08080808 = some (p', true) := by
  have hanswer : DhcpAnswer dnsAnswer := by
    set_option maxRecDepth 20000 in
    exact ⟨by decide, by decide, by decide, by decide, by decide, by decide, by decide⟩
  have hlong : HasLong 6 4 (dhcpOptions dnsAnswer) :=
    ⟨[], [192, 168, 0, 1], [], by decide,
      fun _ hmem => (List.not_mem_nil hmem).elim, fun _ hmem => (List.not_mem_nil hmem).elim,
      by decide, by decide⟩
  obtain ⟨p', hit, heq, _, hiff, _⟩ := rewriteDhcpDnsOption_exact dnsAnswer 0x08080808
    (by decide)
  rw [hiff.mpr ⟨hanswer, hlong⟩] at heq
  exact ⟨p', heq⟩

end NdsRecomp.Net
