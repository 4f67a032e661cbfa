/-
  Strongbox.Proofs.Key.LeadingBlanks — armour behind blanks.

  Recognition passes over blanks, but reading begins at a boundary, which begins a line. So blanks
  in front of armour are passed over where a line begins behind them. Otherwise the boundary behind
  them is none, and what is read is a block at a later line, if there is one. A private key is all
  of its block, so there is none; a certificate leaves room for one behind it in its block.
  - `behind_blanks`: what is read behind blanks.
  - `a_blank_hides_the_boundary`: armour that is recognised and not read.
-/

import Strongbox.Proofs.Key.Certificate
import Strongbox.Proofs.Key.Private

namespace Strongbox

open Outcome

namespace Certificate

/-- A certificate is read from the first boundary on, -/
theorem ofBytes_of_boundary? {b q : Bytes} (h : Pem.looksLike b = true)
    (hq : Pem.boundary? b = some q) : ofBytes b = ofBytes q := by
  obtain ⟨hs, -⟩ := Pem.boundary?_eq_some hq
  have hself : Pem.boundary? q = some q := if_pos hs
  have hlooks : Pem.looksLike q = true := by
    obtain ⟨rest, rfl⟩ := Pem.exists_of_startsWith hs
    exact Pem.looksLike_opening rest
  rw [ofBytes, if_pos h, ofBytes, if_pos hlooks, ofPem, ofPem, armoured?, armoured?,
    Pem.block?_congr (hq.trans hself.symm)]

/-- and not at all without one. -/
theorem ofBytes_of_no_boundary {b : Bytes} (h : Pem.looksLike b = true)
    (hb : Pem.boundary? b = none) :
    ofBytes b = .error (.malformed "invalid certificate PEM: no certificate in a block") := by
  rw [ofBytes, if_pos h, ofPem, armoured?, Pem.block?, Pem.split?_of_no_boundary hb]
  rfl

variable {w p : Bytes} (hw : Pem.AreBlank w) (hp : Pem.looksLike p = true)
include hw hp

theorem ofBytes_behind_line (hline : Pem.BeginsLine w) : ofBytes (w ++ p) = ofBytes p := by
  have hlooks : Pem.looksLike (w ++ p) = true := (Pem.looksLike_append hw p).trans hp
  have hfirst := Pem.boundary?_append hw p
  rw [if_pos hline] at hfirst
  cases hq : Pem.boundary? p with
  | some q =>
    rw [ofBytes_of_boundary? hlooks (hfirst.trans hq), ofBytes_of_boundary? hp hq]
  | none => rw [ofBytes_of_no_boundary hlooks (hfirst.trans hq), ofBytes_of_no_boundary hp hq]

theorem ofBytes_behind_blanks (hline : ¬ Pem.BeginsLine w) :
    ofBytes (w ++ p) = match Pem.fromBoundary? p with
      | some q => ofBytes q
      | none => .error (.malformed "invalid certificate PEM: no certificate in a block") := by
  have hlooks : Pem.looksLike (w ++ p) = true := (Pem.looksLike_append hw p).trans hp
  have hfirst := Pem.boundary?_append hw p
  rw [if_neg hline] at hfirst
  cases hq : Pem.fromBoundary? p with
  | some q => exact ofBytes_of_boundary? hlooks (hfirst.trans hq)
  | none => exact ofBytes_of_no_boundary hlooks (hfirst.trans hq)

end Certificate

namespace PrivateKey

/-- What is read as armoured stays so behind blanks exactly where its boundary does. -/
theorem armoured_append {w p : Bytes} (hw : Pem.AreBlank w) {label : String} {content : Bytes}
    (h : armoured p = .ok (label, content)) :
    armoured (w ++ p) =
      if Pem.BeginsLine w ∨ Pem.startsWith p Pem.opening = false then .ok (label, content)
      else .error (.malformed "invalid PEM: no block") := by
  obtain ⟨hutf8, ⟨block, hblock, hlabel, hdecode⟩, hsequence⟩ := armoured_eq_ok.mp h
  have hascii : ∀ x ∈ w, x.toNat < 128 := fun x hx =>
    Nat.lt_trans (hw x hx).toNat_lt (by decide)
  have hutf8' : Text.Utf8.defect? (w ++ p) = none :=
    (Text.Utf8.defect?_append_eq_none hascii p).mpr hutf8
  have hfirst := Pem.boundary?_append hw p
  split
  · rename_i hread
    have hsame : Pem.boundary? (w ++ p) = Pem.boundary? p := by
      rw [hfirst]
      split
      · rfl
      · rename_i hline
        rw [Pem.boundary?, hread.resolve_left hline]
        rfl
    exact armoured_eq_ok.mpr
      ⟨hutf8', ⟨block, (Pem.block?_congr hsame).trans hblock, hlabel, hdecode⟩, hsequence⟩
  · rename_i hread
    rw [not_or, Bool.not_eq_false] at hread
    rw [if_neg hread.1, Pem.fromBoundary?_of_decode? hread.2 hblock hdecode] at hfirst
    have hnone : Pem.block? (w ++ p) = none := by
      rw [Pem.block?, Pem.split?_of_no_boundary hfirst]
      rfl
    simp only [armoured, hutf8', hnone, Option.bind_none]

end PrivateKey

/-- A certificate in armour is the same behind blanks exactly when they end with a line feed, if
there are any, or the text has the certificate once more at a later line; a private key exactly
when they do or its own boundary is at a later line. -/
theorem behind_blanks {w p : Bytes} (hw : Pem.AreBlank w)
    (hp : Pem.startsWith p (Pem.ascii "-----BEGIN") = true) :
    (∀ c, Certificate.ofBytes p = .ok c →
      (Certificate.ofBytes (w ++ p) = .ok c ↔ Pem.BeginsLine w ∨
        ∃ q, Pem.fromBoundary? p = some q ∧ Certificate.ofBytes q = .ok c) ∧
      (¬ Pem.BeginsLine w → Pem.fromBoundary? p = none → Certificate.ofBytes (w ++ p) =
        .error (.malformed "invalid certificate PEM: no certificate in a block"))) ∧
    ∀ password k, PrivateKey.ofBytes p password = .ok k →
      PrivateKey.ofBytes (w ++ p) password =
        if Pem.BeginsLine w ∨ Pem.startsWith p Pem.opening = false then .ok k
        else .error (.malformed "invalid PEM: no block") := by
  have hlooks := Pem.looksLike_of_startsWith hp
  constructor
  · intro c hc
    refine ⟨?_, fun hline hnone => by rw [Certificate.ofBytes_behind_blanks hw hlooks hline, hnone]⟩
    by_cases hline : Pem.BeginsLine w
    · rw [Certificate.ofBytes_behind_line hw hlooks hline, hc]
      exact ⟨fun _ => .inl hline, fun _ => rfl⟩
    · rw [Certificate.ofBytes_behind_blanks hw hlooks hline]
      cases hq : Pem.fromBoundary? p with
      | none => simp [hline]
      | some q => simp [hline]
  · intro password k hk
    rw [PrivateKey.ofBytes_of_looksLike hlooks] at hk
    obtain ⟨⟨label, content⟩, harmoured, hk⟩ := bind_eq_ok.mp hk
    rw [PrivateKey.ofBytes_of_looksLike ((Pem.looksLike_append hw p).trans hlooks),
      PrivateKey.armoured_append hw harmoured]
    split
    · exact hk
    · rfl

/-! ## A certificate and a key -/

def certificateText : Bytes :=
  Pem.render "CERTIFICATE" (Certificate.smallCertificate none).encode

def privateKeyText : Bytes := Pem.render "PRIVATE KEY" (PrivateKey.seedInfo (List.replicate 32 1))

theorem ofBytes_certificateText : Certificate.ofBytes certificateText =
    .ok (Certificate.smallView (Certificate.smallCertificate none).encode) := by
  have hwhole : X509.Certificate.parser.whole (Certificate.smallCertificate none).encode =
      some (Certificate.smallCertificate none).certificate := by decide
  rw [certificateText, Certificate.ofBytes_render hwhole]
  decide

theorem ofBytes_privateKeyText :
    PrivateKey.ofBytes privateKeyText [] = .ok (.ed25519 ⟨List.replicate 32 1⟩) := by
  decide +kernel

/-- Blanks that end with a line feed are passed over, -/
theorem behind_blanks_lineFeed :
    Certificate.ofBytes ([32, 13, 10] ++ certificateText) =
      .ok (Certificate.smallView (Certificate.smallCertificate none).encode) ∧
    PrivateKey.ofBytes ([32, 13, 10] ++ privateKeyText) [] =
      .ok (.ed25519 ⟨List.replicate 32 1⟩) := by
  have hblank : Pem.AreBlank [32, 13, 10] := by decide
  have hline : Pem.BeginsLine [32, 13, 10] := by decide
  obtain ⟨hcertificate, -⟩ := behind_blanks (p := certificateText) hblank
    (Pem.startsWith_render _ _)
  obtain ⟨-, hkey⟩ := behind_blanks (p := privateKeyText) hblank (Pem.startsWith_render _ _)
  refine ⟨(hcertificate _ ofBytes_certificateText).1.mpr (.inl hline), ?_⟩
  rw [hkey [] _ ofBytes_privateKeyText, if_pos (.inl hline)]

/-- and a single blank is not: the text is recognised as armour, and no block is found in it. -/
theorem a_blank_hides_the_boundary :
    Pem.AreBlank [32] ∧ Pem.startsWith certificateText (Pem.ascii "-----BEGIN") = true ∧
    Pem.looksLike ([32] ++ certificateText) = true ∧
    Certificate.ofBytes certificateText =
      .ok (Certificate.smallView (Certificate.smallCertificate none).encode) ∧
    Certificate.ofBytes ([32] ++ certificateText) =
      .error (.malformed "invalid certificate PEM: no certificate in a block") ∧
    PrivateKey.ofBytes privateKeyText [] = .ok (.ed25519 ⟨List.replicate 32 1⟩) ∧
    PrivateKey.ofBytes ([32] ++ privateKeyText) [] =
      .error (.malformed "invalid PEM: no block") :=
  have hlooks : Pem.looksLike ([32] ++ certificateText) = true :=
    (Pem.looksLike_append (by decide) _).trans (Pem.looksLike_render _ _)
  ⟨by decide, Pem.startsWith_render _ _, hlooks, ofBytes_certificateText, by decide +kernel,
    ofBytes_privateKeyText, by decide +kernel⟩

end Strongbox
