import MediaProxy.Config

/-!
This module contains what becomes of the spans that are set in a configuration. A span is kept as a number
of milliseconds in 64 bits. One that has so few of them is kept but for what is beyond its last whole
millisecond; of a longer one only what is beyond the multiples of `2 ^ 64` milliseconds is kept.
-/

namespace MediaProxy

namespace Span

structure RoundsDown (rounded span : Span) : Prop where
  whole : 1000000 ∣ rounded.nanoseconds
  le : rounded.nanoseconds ≤ span.nanoseconds
  lt : span.nanoseconds < rounded.nanoseconds + 1000000

def Fits (span : Span) : Prop :=
  span.millis < UInt64.size

instance (span : Span) : Decidable span.Fits :=
  inferInstanceAs (Decidable (span.millis < UInt64.size))

def longest : Span :=
  .ofMillis (UInt64.size - 1)

def Undistorted (kept span : Span) : Prop :=
  if span.Fits then kept.RoundsDown span else kept = longest

theorem roundsDown_ofMillis (span : Span) : (ofMillis span.millis).RoundsDown span where
  whole := Nat.dvd_mul_left ..
  le := Nat.div_mul_le_self ..
  lt := Nat.lt_div_mul_add (by decide)

theorem ofMillis_inj {m n : Nat} : ofMillis m = ofMillis n ↔ m = n := by
  constructor
  . intro h
    have := congrArg millis h
    rwa [millis_ofMillis, millis_ofMillis] at this
  . exact congrArg ofMillis

section
variable {rounded span other rounded' : Span}

theorem RoundsDown.mono (h : rounded.RoundsDown span) (h' : rounded'.RoundsDown other)
    (hle : span.nanoseconds ≤ other.nanoseconds) : rounded.nanoseconds ≤ rounded'.nanoseconds := by
  obtain ⟨m, hm⟩ := h.whole
  obtain ⟨n, hn⟩ := h'.whole
  have := h.le
  have := h'.lt
  omega

theorem RoundsDown.pos (h : rounded.RoundsDown span) (hspan : 1000000 ≤ span.nanoseconds)
    : 0 < rounded.nanoseconds := by
  have := h.lt
  omega

end

theorem undistorted_mod_iff (span : Span)
    : (ofMillis (span.millis % UInt64.size)).Undistorted span ↔
        span.Fits ∨ span.millis % UInt64.size = UInt64.size - 1 := by
  unfold Undistorted
  split
  . rename_i hfits
    rw [Nat.mod_eq_of_lt hfits]
    exact iff_of_true span.roundsDown_ofMillis (.inl hfits)
  . rename_i hfits
    unfold longest
    rw [ofMillis_inj]
    exact (or_iff_right hfits).symm

end Span

namespace Config

/--
What is promised of a span that is set in a configuration, with `set` to set it, `kept` to read it and
`others` for all other fields. What is kept is never longer than what was set, and it is what should be kept
unless the milliseconds do not fit. As far as they do, longer spans are not kept as shorter ones, and nothing
that lasts a millisecond is kept as nothing.
-/
structure KeepsSpan (set : Config → Span → Config) (kept : Config → Span) (others : Config → α)
    (config : Config) (span : Span) : Prop where
  overflow : kept (set config span) = .ofMillis (span.millis % UInt64.size)
  roundsDown : span.Fits → (kept (set config span)).RoundsDown span
  undistorted_iff : (kept (set config span)).Undistorted span ↔
    span.Fits ∨ span.millis % UInt64.size = UInt64.size - 1
  le : (kept (set config span)).nanoseconds ≤ span.nanoseconds
  mono : ∀ other, other.Fits → span.nanoseconds ≤ other.nanoseconds →
    (kept (set config span)).nanoseconds ≤ (kept (set config other)).nanoseconds
  pos : span.Fits → 1000000 ≤ span.nanoseconds → 0 < (kept (set config span)).nanoseconds
  others_eq : others (set config span) = others config

theorem keepsSpan_of_overflow {set : Config → Span → Config} {kept : Config → Span}
    {others : Config → α} {config : Config}
    (hkept : ∀ span, kept (set config span) = .ofMillis (span.millis % UInt64.size))
    (hothers : ∀ span, others (set config span) = others config) (span : Span)
    : KeepsSpan set kept others config span := by
  have hrounds : ∀ span, span.Fits → (kept (set config span)).RoundsDown span := by
    intro span hfits
    rw [hkept, Nat.mod_eq_of_lt hfits]
    exact span.roundsDown_ofMillis
  constructor
  . exact hkept span
  . exact hrounds span
  . rw [hkept]
    exact span.undistorted_mod_iff
  . rw [hkept]
    exact Nat.le_trans (Nat.mul_le_mul_right _ (Nat.mod_le ..)) span.roundsDown_ofMillis.le
  . intro other hfits hle
    have hspan : span.Fits := Nat.lt_of_le_of_lt (Nat.div_le_div_right hle) hfits
    exact (hrounds span hspan).mono (hrounds other hfits) hle
  . intro hfits hspan
    exact (hrounds span hfits).pos hspan
  . exact hothers span

theorem keepsSpans (config : Config) (span : Span)
    : KeepsSpan withAcquireTimeout acquireSpan
        (fun config => (config.handlerAddress, config.handlerPort, config.maxConnections,
          config.keepaliveInterval)) config span ∧
      KeepsSpan withKeepaliveInterval keepaliveSpan
        (fun config => (config.handlerAddress, config.handlerPort, config.maxConnections,
          config.acquireTimeout)) config span := by
  constructor
  . refine keepsSpan_of_overflow ?_ ?_ span
    . intro span
      exact congrArg Span.ofMillis UInt64.toNat_ofNat'
    . intro span
      rfl
  . refine keepsSpan_of_overflow ?_ ?_ span
    . intro span
      exact congrArg Span.ofMillis UInt64.toNat_ofNat'
    . intro span
      rfl

/--
The shortest span that does not fit is kept as nothing at all.
-/
theorem distorted_overflowing
    : ¬((({} : Config).withAcquireTimeout (.ofSeconds 18446744073709551 616000000)).acquireSpan).Undistorted
          (.ofSeconds 18446744073709551 616000000) ∧
      (({} : Config).withAcquireTimeout (.ofSeconds 18446744073709551 616000000)).acquireSpan =
        .ofMillis 0 ∧
      (({} : Config).withKeepaliveInterval (.ofSeconds 18446744073709551 616000000)).keepaliveSpan =
        .ofMillis 0 ∧
      (({} : Config).withKeepaliveInterval (.ofSeconds 18446744073709551 616000000)).fault? =
        some .noInterval := by
  refine ⟨?_, by decide, by decide, by decide⟩
  unfold Span.Undistorted
  rw [if_neg (by decide)]
  decide

end Config

end MediaProxy
