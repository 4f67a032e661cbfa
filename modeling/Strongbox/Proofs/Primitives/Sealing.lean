/-
  Strongbox.Proofs.Primitives.Sealing — with one secret key, sealing and opening undo each other.

  Whichever way a secret key is obtained, it has 16 or 32 octets, so the cipher takes it. Under a
  nonce and with associated data each text has one sealed form, and nothing else opens. Encryption
  puts its random nonce in front of the sealed text, so the octets that can be decrypted are cut
  at one place only, and they are those that encryption gives for the nonce they begin with.
  - `SecretKey.Obtained.size`: the size of a key, for each way to obtain it.
  - `Primitives.decrypt_aesGcm`: what decryption makes of any octets.
  - `Primitives.sealing_of_obtained`: all of it for every key that can be obtained.
-/

import Strongbox.Proofs.Primitives

namespace Strongbox

open Outcome

/-! ## Keys -/

namespace SecretKey

inductive Obtained : SecretKey → Prop where
  | made {b : Bytes} {k : SecretKey} : make b = .ok k → Obtained k
  | read {text : String} {k : SecretKey} : ofHex text = .ok k → Obtained k
  | generated (random : Random) : Obtained (generate random)

theorem length_of_make {b : Bytes} {k : SecretKey} (h : make b = .ok k) :
    k.octets.length = 16 ∨ k.octets.length = 32 := by
  obtain ⟨hl, ho⟩ := make_eq_ok.mp h
  exact ho ▸ hl

theorem Obtained.size {k : SecretKey} (h : k.Obtained) :
    k.octets.length = 16 ∨ k.octets.length = 32 := by
  cases h with
  | made h => exact length_of_make h
  | @read text k h =>
    rw [ofHex] at h
    cases hb : Hex.decode (Text.trim text) with
    | error e =>
      rw [hb] at h
      cases h
    | ok b =>
      rw [hb] at h
      exact length_of_make h
  | generated random =>
    right
    rw [generate, Random.length_octets]

end SecretKey

theorem Random.exists_octets (b : Bytes) : ∃ random : Random, random.octets b.length = b := by
  refine ⟨fun i => b.getD i 0, List.ext_getElem (length_octets _ _) fun i _ hi => ?_⟩
  simp [octets, hi]

namespace Primitives

/-! ## Outcomes that do not blame the key -/

/-- The outcome is not that the key is of the wrong kind or size. -/
def AcceptsKey (x : Except PrimitiveError α) : Prop := ∀ m, x ≠ .error (.keyIncompatible m)

theorem AcceptsKey.bind {x : Except PrimitiveError α} {f : α → Except PrimitiveError β}
    (hx : AcceptsKey x) (hf : ∀ a, AcceptsKey (f a)) : AcceptsKey (x >>= f) := by
  intro m h
  rcases bind_eq_error.mp h with h | ⟨a, -, h⟩
  · exact hx m h
  · exact hf a m h

theorem acceptsKey_checkProvider (provider : Option String) : AcceptsKey (checkProvider provider) := by
  intro m h
  rw [checkProvider] at h
  split at h <;> cases h

theorem acceptsKey_checkNonce (nonce : Bytes) : AcceptsKey (checkNonce nonce) := by
  intro m h
  rw [checkNonce] at h
  split at h <;> cases h

variable {provider : Option String} {key : SecretKey}

section Sized

/-! Keys of the two sizes are not refused, whatever else may be wrong. -/

variable (hk : key.octets.length = 16 ∨ key.octets.length = 32)
include hk

theorem acceptsKey_sealText (nonce data associated : Bytes) :
    AcceptsKey (sealText provider key nonce data associated) := by
  rw [sealText, bind_of_ok (checkKey_eq_ok.mpr hk)]
  refine (acceptsKey_checkProvider _).bind fun _ => (acceptsKey_checkNonce _).bind fun _ => ?_
  intro m h
  split at h <;> cases h

theorem acceptsKey_openText (nonce data associated : Bytes) :
    AcceptsKey (openText provider key nonce data associated) := by
  rw [openText, bind_of_ok (checkKey_eq_ok.mpr hk)]
  refine (acceptsKey_checkProvider _).bind fun _ => (acceptsKey_checkNonce _).bind fun _ => ?_
  intro m h
  split at h <;> cases h

theorem acceptsKey_encrypt (random : Random) (data : Bytes) :
    AcceptsKey (encrypt random .aesGcm provider (.secretKey key) data) := by
  refine (acceptsKey_checkProvider _).bind fun _ => ?_
  have hkey : secretKey (.secretKey key) = .ok key := rfl
  dsimp only
  rw [bind_of_ok hkey]
  exact (acceptsKey_sealText hk _ _ _).bind fun _ => nofun

theorem acceptsKey_decrypt (d : Bytes) :
    AcceptsKey (decrypt .aesGcm provider (.secretKey key) d) := by
  refine (acceptsKey_checkProvider _).bind fun _ => ?_
  show AcceptsKey (if _ then _ else openText provider key _ _ [])
  split
  · intro m h
    cases h
  · exact acceptsKey_openText hk _ _ _

end Sized

/-! ## Sealed texts -/

/-- What opens is what was sealed, and nothing else. -/
theorem openText_eq_ok_iff {nonce data associated c : Bytes}
    (hroom : Aes.Gcm.HasRoom associated data) :
    openText provider key nonce c associated = .ok data ↔
      sealText provider key nonce data associated = .ok c := by
  rw [openText_eq_ok, sealText_eq_ok, Aes.Gcm.openText?_eq_some hroom]
  constructor
  · rintro ⟨hp, hn, hk, rfl⟩
    exact ⟨hp, ⟨hk, hn, hroom⟩, rfl⟩
  · rintro ⟨hp, hf, rfl⟩
    exact ⟨hp, hf.nonce, hf.key, rfl⟩

/-- What does not open has the wrong tag, if the key and the nonce have their sizes. -/
theorem openText_eq_error (hp : checkProvider provider = .ok ())
    (hk : key.octets.length = 16 ∨ key.octets.length = 32) {nonce c associated : Bytes}
    (hn : nonce.length = Aes.Gcm.nonceSize)
    (h : ∀ text, openText provider key nonce c associated ≠ .ok text) :
    openText provider key nonce c associated = .error (.badPadding "AES-GCM tag mismatch") := by
  rw [openText, bind_of_ok hp, bind_of_ok (checkNonce_eq_ok.mpr hn),
    bind_of_ok (checkKey_eq_ok.mpr hk)]
  cases ho : Aes.Gcm.openText? key.octets nonce associated c with
  | none => rfl
  | some text => exact absurd (openText_eq_ok.mpr ⟨hp, hn, hk, ho⟩) (h text)

theorem length_of_openText {nonce data associated c : Bytes}
    (h : openText provider key nonce c associated = .ok data) :
    c.length = data.length + Aes.Gcm.tagSize := by
  obtain ⟨-, -, -, h⟩ := openText_eq_ok.mp h
  rw [Aes.Gcm.eq_sealText_of_openText? h, Aes.Gcm.length_sealText]

/-! ## Nonces in front -/

theorem encrypt_aesGcm_eq_ok {random : Random} {data d : Bytes} :
    encrypt random .aesGcm provider (.secretKey key) data = .ok d ↔
      ∃ c, sealText provider key (random.octets Aes.Gcm.nonceSize) data [] = .ok c ∧
        d = random.octets Aes.Gcm.nonceSize ++ c := by
  constructor
  · intro h
    obtain ⟨⟨⟩, -, h⟩ := bind_eq_ok.mp h
    obtain ⟨k, hk, h⟩ := bind_eq_ok.mp h
    cases hk
    obtain ⟨c, hc, h⟩ := bind_eq_ok.mp h
    exact ⟨c, hc, (Except.ok.inj h).symm⟩
  · rintro ⟨c, hc, rfl⟩
    have hp := (sealText_eq_ok.mp hc).1
    exact bind_eq_ok.mpr ⟨(), hp, bind_eq_ok.mpr ⟨key, rfl, bind_eq_ok.mpr ⟨c, hc, rfl⟩⟩⟩

/-- Decryption opens what stands behind the nonce, where there is room for a nonce and a tag. -/
theorem decrypt_aesGcm (hp : checkProvider provider = .ok ()) (d : Bytes) :
    decrypt .aesGcm provider (.secretKey key) d =
      if d.length < 28 then
        .error (.invalidParameters
          s!"AES-GCM ciphertext must be at least 28 bytes, got {d.length}")
      else openText provider key (d.take Aes.Gcm.nonceSize) (d.drop Aes.Gcm.nonceSize) [] := by
  rw [decrypt, bind_of_ok hp]
  rfl

theorem length_nonce {d : Bytes} (h : 28 ≤ d.length) :
    (d.take Aes.Gcm.nonceSize).length = Aes.Gcm.nonceSize := by
  rw [List.length_take, Aes.Gcm.nonceSize]
  omega

/-- What is decrypted is what encryption gives for the nonce that stands in front. -/
theorem decrypt_aesGcm_eq_ok (hp : checkProvider provider = .ok ()) {d text : Bytes}
    (hroom : d.length ≤ 28 + Aes.Gcm.sizeLimit) :
    decrypt .aesGcm provider (.secretKey key) d = .ok text ↔ 28 ≤ d.length ∧
      ∃ random : Random, random.octets Aes.Gcm.nonceSize = d.take Aes.Gcm.nonceSize ∧
        encrypt random .aesGcm provider (.secretKey key) text = .ok d := by
  constructor
  · intro h
    rw [decrypt_aesGcm hp] at h
    by_cases hl : d.length < 28
    · rw [if_pos hl] at h
      cases h
    rw [if_neg hl] at h
    have hn := length_nonce (Nat.not_lt.mp hl)
    have ht : Aes.Gcm.HasRoom [] text := by
      have hc := length_of_openText h
      rw [List.length_drop, Aes.Gcm.nonceSize, Aes.Gcm.tagSize] at hc
      exact ⟨Nat.zero_le _, by omega⟩
    -- Whatever the nonce is, it can have been drawn.
    obtain ⟨random, hr⟩ := Random.exists_octets (d.take Aes.Gcm.nonceSize)
    rw [hn] at hr
    refine ⟨Nat.not_lt.mp hl, random, hr, encrypt_aesGcm_eq_ok.mpr ⟨d.drop Aes.Gcm.nonceSize, ?_⟩⟩
    rw [hr, List.take_append_drop]
    exact ⟨(openText_eq_ok_iff ht).mp h, rfl⟩
  · rintro ⟨-, random, -, h⟩
    exact decrypt_encrypt (.secret key rfl) h hp

/-! ## One key -/

structure Sealing (provider : Option String) (key : SecretKey) : Prop where
  /-- Whatever has room is sealed, and grows by the tag. -/
  seals : ∀ nonce data associated : Bytes, nonce.length = 12 → Aes.Gcm.HasRoom associated data →
    ∃ c, sealText provider key nonce data associated = .ok c ∧ c.length = data.length + 16
  /-- What opens to a text is the sealed text. -/
  opens_iff : ∀ nonce data associated c : Bytes, nonce.length = 12 →
    Aes.Gcm.HasRoom associated data →
      (openText provider key nonce c associated = .ok data ↔
        sealText provider key nonce data associated = .ok c)
  /-- A ciphertext is the nonce and the sealed text. -/
  encrypts : ∀ (random : Random) (data : Bytes), Aes.Gcm.HasRoom [] data →
    ∃ c, sealText provider key (random.octets 12) data [] = .ok c ∧
      encrypt random .aesGcm provider (.secretKey key) data = .ok (random.octets 12 ++ c) ∧
        (random.octets 12 ++ c).length = 28 + data.length
  /-- What is decrypted is a ciphertext for the nonce it begins with. -/
  decrypts_iff : ∀ d data : Bytes, d.length ≤ 28 + Aes.Gcm.sizeLimit →
    (decrypt .aesGcm provider (.secretKey key) d = .ok data ↔ 28 ≤ d.length ∧
      ∃ random : Random, random.octets 12 = d.take 12 ∧
        encrypt random .aesGcm provider (.secretKey key) data = .ok d)
  /-- There is no room for a nonce and a tag. -/
  short : ∀ d : Bytes, d.length < 28 → decrypt .aesGcm provider (.secretKey key) d =
    .error (.invalidParameters s!"AES-GCM ciphertext must be at least 28 bytes, got {d.length}")
  /-- Anything else that is no ciphertext has the wrong tag. -/
  other : ∀ d : Bytes, 28 ≤ d.length → d.length ≤ 28 + Aes.Gcm.sizeLimit →
    (∀ (random : Random) (data : Bytes), random.octets 12 = d.take 12 →
      encrypt random .aesGcm provider (.secretKey key) data ≠ .ok d) →
        decrypt .aesGcm provider (.secretKey key) d = .error (.badPadding "AES-GCM tag mismatch")

/-- No operation refuses the key, at whichever provider and with whatever else it is given. -/
structure Unrefused (key : SecretKey) : Prop where
  seals : ∀ (provider : Option String) (nonce data associated : Bytes),
    AcceptsKey (sealText provider key nonce data associated)
  opens : ∀ (provider : Option String) (nonce data associated : Bytes),
    AcceptsKey (openText provider key nonce data associated)
  encrypts : ∀ (provider : Option String) (random : Random) (data : Bytes),
    AcceptsKey (encrypt random .aesGcm provider (.secretKey key) data)
  decrypts : ∀ (provider : Option String) (data : Bytes),
    AcceptsKey (decrypt .aesGcm provider (.secretKey key) data)

/-- A key that was made from octets, read from a text or generated seals every text that has room
and opens exactly what it sealed, with a nonce in front or given, and is never refused. -/
theorem sealing_of_obtained (hk : key.Obtained) (hp : checkProvider provider = .ok ()) :
    Sealing provider key ∧ Unrefused key := by
  have hsize := hk.size
  constructor
  · constructor
    case seals =>
      intro nonce data associated hn hroom
      exact ⟨_, sealText_eq_ok.mpr ⟨hp, ⟨hsize, hn, hroom⟩, rfl⟩, Aes.Gcm.length_sealText ..⟩
    case opens_iff =>
      intro nonce data associated c _ hroom
      exact openText_eq_ok_iff hroom
    case encrypts =>
      intro random data hroom
      have hn : (random.octets 12).length = 12 := Random.length_octets _ _
      have hs : sealText provider key (random.octets 12) data [] = .ok _ :=
        sealText_eq_ok.mpr ⟨hp, ⟨hsize, hn, hroom⟩, rfl⟩
      refine ⟨_, hs, encrypt_aesGcm_eq_ok.mpr ⟨_, hs, rfl⟩, ?_⟩
      rw [List.length_append, hn, Aes.Gcm.length_sealText, Aes.Gcm.tagSize]
      omega
    case decrypts_iff => exact fun d data hroom => decrypt_aesGcm_eq_ok hp hroom
    case short =>
      intro d hl
      rw [decrypt_aesGcm hp, if_pos hl]
    case other =>
      intro d hl hroom hn
      have hopen (text : Bytes) : decrypt .aesGcm provider (.secretKey key) d ≠ .ok text := by
        intro h
        obtain ⟨-, random, hr, he⟩ := (decrypt_aesGcm_eq_ok hp hroom).mp h
        exact hn random text hr he
      rw [decrypt_aesGcm hp, if_neg (Nat.not_lt.mpr hl)] at hopen ⊢
      exact openText_eq_error hp hsize (length_nonce hl) hopen
  · exact ⟨fun _ => acceptsKey_sealText hsize, fun _ => acceptsKey_openText hsize,
      fun _ => acceptsKey_encrypt hsize, fun _ => acceptsKey_decrypt hsize⟩

def zeroKey : SecretKey := ⟨List.replicate 16 0⟩

/-- One octet is sealed with the key of zeros, opens again, and does not decrypt on its own, for
want of a nonce. -/
theorem sealing_of_obtained_zeroKey :
    zeroKey.Obtained ∧ checkProvider none = .ok () ∧
      ∃ c, sealText none zeroKey (List.replicate 12 0) [1] [2] = .ok c ∧ c.length = 17 ∧
        openText none zeroKey (List.replicate 12 0) c [2] = .ok [1] ∧
          decrypt .aesGcm none (.secretKey zeroKey) c = .error
            (.invalidParameters s!"AES-GCM ciphertext must be at least 28 bytes, got {c.length}") := by
  have hk : zeroKey.Obtained := .made (b := List.replicate 16 0) rfl
  have hp : checkProvider none = .ok () := rfl
  obtain ⟨hs, -⟩ := sealing_of_obtained hk hp
  obtain ⟨c, hc, hl⟩ := hs.seals (List.replicate 12 0) [1] [2] rfl (by decide)
  refine ⟨hk, hp, c, hc, hl, (hs.opens_iff _ _ _ _ rfl (by decide)).mpr hc, hs.short c ?_⟩
  rw [hl]
  decide

end Primitives

end Strongbox
