import Runbook.Text.Base64
import Mathlib.Data.List.Basic
import Mathlib.Data.List.Infix

/-!
# Sextets

Base 64 writes bytes as sextets, one character for each, with equals signs behind them that fill up
the last group of four. Strict decoding takes a text apart in this way: characters that stand for
sextets, and then equals signs, as many as the group wants. Loose decoding goes through the text
character by character and may stop early. On a text that strict decoding accepts it comes to the
same sextets: it passes over nothing, and it stops only where all groups are full.

* `Base64.sextets`, `Base64.signs`: the sextets of bytes, and how many equals signs follow.
* `Base64.decode?_eq_some_iff`: what strict decoding accepts.
* `Base64.decode?_encode`: what has been encoded is decoded.
* `Base64.decodeLoose?_of_decode?`: loose decoding agrees with strict decoding.
-/

namespace Runbook.Base64

variable {cs : List Char} {bytes : List UInt8}

/-! ### Characters -/

theorem sextet?_digit : ∀ n < 64, sextet? (digit n) = some n := by decide

theorem sextet?_equalsSign : sextet? '=' = none := by decide

/-- The sextets that bytes are written as. -/
def sextets : List UInt8 → List Nat
  | [] => []
  | [a] => [a.toNat / 4, a.toNat % 4 * 16]
  | [a, b] => [a.toNat / 4, a.toNat % 4 * 16 + b.toNat / 16, b.toNat % 16 * 4]
  | a :: b :: c :: rest =>
    a.toNat / 4 :: (a.toNat % 4 * 16 + b.toNat / 16) :: (b.toNat % 16 * 4 + c.toNat / 64)
      :: c.toNat % 64 :: sextets rest

/-- How many equals signs follow the sextets of bytes. -/
def signs : List UInt8 → Nat
  | [] => 0
  | [_] => 2
  | [_, _] => 1
  | _ :: _ :: _ :: rest => signs rest

theorem encode_eq (bytes : List UInt8) :
    encode bytes = (sextets bytes).map digit ++ List.replicate (signs bytes) '=' := by
  induction bytes using encode.induct with
  | case1 => rfl
  | case2 a => rfl
  | case3 a b => rfl
  | case4 a b c rest ih => simp [encode, sextets, signs, ih]

theorem sextets_lt (bytes : List UInt8) : ∀ n ∈ sextets bytes, n < 64 := by
  induction bytes using encode.induct with
  | case1 => simp [sextets]
  | case2 a =>
    have ha := a.toNat_lt
    simp [sextets]
    omega
  | case3 a b =>
    have ha := a.toNat_lt
    have hb := b.toNat_lt
    simp [sextets]
    omega
  | case4 a b c rest ih =>
    have ha := a.toNat_lt
    have hb := b.toNat_lt
    have hc := c.toNat_lt
    simp only [sextets, List.forall_mem_cons]
    refine ⟨?_, ?_, ?_, ?_, ih⟩ <;> omega

theorem padded_add_four {n k : Nat} (h : padded n k) : padded (n + 4) k := by
  unfold padded at h ⊢
  rw [Nat.add_mod_right]
  split <;> simp_all

/-- The equals signs fill up the last group. -/
theorem padded_sextets (bytes : List UInt8) : padded (sextets bytes).length (signs bytes) := by
  induction bytes using encode.induct with
  | case1 => decide
  | case2 a => simp [sextets, signs, padded]
  | case3 a b => simp [sextets, signs, padded]
  | case4 a b c rest ih =>
    exact padded_add_four ih

/-- The sextets of bytes make up the bytes. -/
theorem pack_sextets (bytes : List UInt8) : pack (sextets bytes) = bytes := by
  induction bytes using encode.induct with
  | case1 => rfl
  | case2 a =>
    have ha := a.toNat_lt
    have hfirst : a.toNat / 4 * 4 + a.toNat % 4 * 16 / 16 = a.toNat := by omega
    simp only [sextets, pack, hfirst, UInt8.ofNat_toNat]
  | case3 a b =>
    have ha := a.toNat_lt
    have hb := b.toNat_lt
    have hfirst : a.toNat / 4 * 4 + (a.toNat % 4 * 16 + b.toNat / 16) / 16 = a.toNat := by omega
    have hsecond : (a.toNat % 4 * 16 + b.toNat / 16) % 16 * 16 + b.toNat % 16 * 4 / 4 =
        b.toNat := by omega
    simp only [sextets, pack, hfirst, hsecond, UInt8.ofNat_toNat]
  | case4 a b c rest ih =>
    have ha := a.toNat_lt
    have hb := b.toNat_lt
    have hc := c.toNat_lt
    have hfirst : a.toNat / 4 * 4 + (a.toNat % 4 * 16 + b.toNat / 16) / 16 = a.toNat := by omega
    have hsecond : (a.toNat % 4 * 16 + b.toNat / 16) % 16 * 16 +
        (b.toNat % 16 * 4 + c.toNat / 64) / 4 = b.toNat := by omega
    have hthird : (b.toNat % 16 * 4 + c.toNat / 64) % 4 * 64 + c.toNat % 64 = c.toNat := by omega
    simp only [sextets, pack, hfirst, hsecond, hthird, UInt8.ofNat_toNat, ih]

/-! ### Strict decoding -/

/-- Strict decoding accepts characters for sextets with the equals signs that they want. -/
theorem decode?_eq_some_iff : decode? cs = some bytes ↔
    ∃ front k, cs = front ++ List.replicate k '=' ∧ (∀ c ∈ front, (sextet? c).isSome) ∧
      padded front.length k ∧ bytes = pack (front.filterMap sextet?) := by
  constructor
  · intro h
    unfold decode? at h
    dsimp only at h
    split at h
    · rename_i hcond
      rw [Bool.and_eq_true, List.all_eq_true] at hcond
      obtain ⟨hsigns, hpadded⟩ := hcond
      obtain rfl := Option.some.inj h
      refine ⟨_, _, ?_, List.all_eq_true.mp List.all_takeWhile, hpadded, rfl⟩
      have htail := List.eq_replicate_of_mem fun c hc => of_decide_eq_true (hsigns c hc)
      rw [← htail]
      exact (List.prefix_iff_eq_append.mp (List.takeWhile_prefix _)).symm
    · cases h
  · rintro ⟨front, k, rfl, hfront, hpadded, rfl⟩
    have htake : (front ++ List.replicate k '=').takeWhile (fun c => (sextet? c).isSome) =
        front := by
      rw [List.takeWhile_append_of_pos hfront]
      cases k <;> simp [List.replicate_succ, sextet?_equalsSign]
    unfold decode?
    simp [htake, hpadded]

/-- What has been encoded is decoded. -/
theorem decode?_encode (bytes : List UInt8) : decode? (encode bytes) = some bytes := by
  have hsextets : ((sextets bytes).map digit).filterMap sextet? = sextets bytes := by
    rw [List.filterMap_map, List.filterMap_congr (g := some)]
    · exact List.filterMap_some
    · exact fun n hn => sextet?_digit n (sextets_lt bytes n hn)
  refine decode?_eq_some_iff.mpr ⟨_, _, encode_eq bytes, ?_, ?_, ?_⟩
  · intro c hc
    obtain ⟨n, hn, rfl⟩ := List.mem_map.mp hc
    rw [sextet?_digit n (sextets_lt bytes n hn)]
    rfl
  · rw [List.length_map]
    exact padded_sextets bytes
  · rw [hsextets, pack_sextets]

/-! ### Loose decoding -/

/-- Characters for sextets are read one after another. -/
theorem looseSextets?_append {pending : Nat} {front : List Char} (tail : List Char)
    (hpending : pending < 4) (h : ∀ c ∈ front, (sextet? c).isSome) :
    looseSextets? pending 0 (front ++ tail) =
      (looseSextets? ((pending + front.length) % 4) 0 tail).map (front.filterMap sextet? ++ ·) := by
  induction front generalizing pending with
  | nil => simp [Nat.mod_eq_of_lt hpending]
  | cons c front ih =>
    rw [List.forall_mem_cons] at h
    obtain ⟨n, hn⟩ := Option.isSome_iff_exists.mp h.1
    have hc : c ≠ '=' := by
      rintro rfl
      cases sextet?_equalsSign.symm.trans hn
    have hlength : ((pending + 1) % 4 + front.length) % 4 =
        (pending + (front.length + 1)) % 4 := by omega
    rw [List.cons_append, looseSextets?, if_neg hc, hn]
    simp only [ih (Nat.mod_lt _ (by decide)) h.2, Option.map_map, List.length_cons, hlength,
      List.filterMap_cons_some hn]
    rfl

/-- Behind full groups, equals signs do not matter. -/
theorem looseSextets?_replicate (k : Nat) : looseSextets? 0 0 (List.replicate k '=') = some [] := by
  induction k with
  | zero => rfl
  | succ k ih => simpa [List.replicate_succ, looseSextets?] using ih

/-- Reading stops at the equals signs that a group wants. -/
theorem looseSextets?_of_padded {n k : Nat} (h : padded n k) :
    looseSextets? (n % 4) 0 (List.replicate k '=') = some [] := by
  unfold padded at h
  split at h
  · rename_i hn
    rw [hn]
    exact looseSextets?_replicate k
  · rename_i hn
    rw [hn, of_decide_eq_true h]
    rfl
  · rename_i hn
    rw [hn, of_decide_eq_true h]
    rfl
  · cases h

/-- Loose decoding agrees with strict decoding on all that the latter accepts. -/
theorem decodeLoose?_of_decode? (h : decode? cs = some bytes) : decodeLoose? cs = some bytes := by
  obtain ⟨front, k, rfl, hfront, hpadded, rfl⟩ := decode?_eq_some_iff.mp h
  rw [decodeLoose?, looseSextets?_append _ (by decide) hfront, Nat.zero_add,
    looseSextets?_of_padded hpadded]
  simp

end Runbook.Base64
