import VectorFence.Clock.Tokens
import VectorFence.Lib.Calendar

/-! Setting the clock and reading it back. The time goes through the string, its numbers, the BCD
    digits of seven registers and the string again:

        "2018-03-31 16:27:00" ─▶ 18 3 31 16 27 0 ─▶ 18 03 31 16 27 00 (BCD) ─▶ "2018-03-31 16:27:00"
                                                        │   ▲
                                                   the chip, other bits arbitrary

    Of the chip it is assumed that it answers and keeps the bits that hold the time (`KeepsTime`). -/

namespace VectorFence

open CStr Calendar

/-- `"YYYY-MM-DD hh:mm:ss"`. -/
def timeText (c : DateTime) : CStr :=
  dec 4 c.year ++ 45 :: (dec 2 c.month ++ 45 :: (dec 2 c.day ++ 32 ::
    (dec 2 c.hour ++ 58 :: (dec 2 c.minute ++ 58 :: dec 2 c.second))))

namespace CStr

variable {w n : ℕ}

theorem length_dec (hw : 0 < w) (h : n < 10 ^ w) : (dec w n).length = w := by
  have hle := (length_dec_le hw le_rfl).mpr h
  rw [dec, List.length_map, List.length_leftpad] at hle ⊢
  exact le_antisymm hle (le_max_left ..)

/-- Digits are a part between separators. -/
theorem dec_part (hw : 0 < w) (h : n < 10 ^ w) {delim : UInt8} (hd : isDigit delim = false) :
    dec w n ≠ [] ∧ delim ∉ dec w n := by
  refine ⟨List.ne_nil_of_length_pos (by rw [length_dec hw h]; exact hw), fun hmem => ?_⟩
  rw [isDigit_of_mem_dec w n delim hmem] at hd
  exact absurd hd (by decide)

end CStr

namespace RtcTd

/-- The structure for a time of the years the clock has. -/
def ofDateTime (c : DateTime) : RtcTd where
  tmYear := UInt8.ofNat (c.year - 2000)
  tmMon := UInt8.ofNat c.month
  tmMday := UInt8.ofNat c.day
  tmHour := UInt8.ofNat c.hour
  tmMin := UInt8.ofNat c.minute
  tmSec := UInt8.ofNat c.second

theorem u8_atoi_dec {n : ℕ} (hn : n < 100) (w : ℕ) : UInt8.ofInt (atoi (dec w n)) = UInt8.ofNat n := by
  rw [atoi_dec (by omega), UInt8.ofInt]
  apply UInt8.toNat_inj.mp
  rw [UInt8.toNat_ofNat', UInt8.toNat_ofNat']
  omega

theorem ofStr_timeText (c : DateTime) (h : 2000 ≤ c.year ∧ c.year < 2100) :
    ofStr (timeText c) = some (ofDateTime c) := by
  obtain ⟨hm0, hm, hd0, -⟩ := c.date
  obtain ⟨hh, hmin, hs⟩ := c.time
  have hd := c.day_le
  have hyear : (dec 4 c.year).length = 4 := length_dec (by norm_num) (by omega)
  have htwo {n : ℕ} (hn : n < 100) : (dec 2 n).length = 2 := length_dec (by norm_num) (by omega)
  have hsplit : timeText c = (dec 4 c.year ++ 45 :: (dec 2 c.month ++ 45 :: dec 2 c.day)) ++
      32 :: (dec 2 c.hour ++ 58 :: (dec 2 c.minute ++ 58 :: dec 2 c.second)) := by
    simp [timeText]
  have hten : (dec 4 c.year ++ 45 :: (dec 2 c.month ++ 45 :: dec 2 c.day)).length = 10 := by
    simp only [List.length_append, List.length_cons, hyear, htwo (show c.month < 100 by omega),
      htwo (show c.day < 100 by omega)]
  have height : (dec 2 c.hour ++ 58 :: (dec 2 c.minute ++ 58 :: dec 2 c.second)).length = 8 := by
    simp only [List.length_append, List.length_cons, htwo (show c.hour < 100 by omega),
      htwo (show c.minute < 100 by omega), htwo (show c.second < 100 by omega)]
  have hdate : (timeText c).take 10 = dec 4 c.year ++ 45 :: (dec 2 c.month ++ 45 :: dec 2 c.day) := by
    rw [hsplit, List.take_left' hten]
  have htime : ((timeText c).drop 11).take 8 = dec 2 c.hour ++ 58 ::
    (dec 2 c.minute ++ 58 :: dec 2 c.second) := by
    rw [hsplit, ← List.drop_drop (i := 1) (j := 10), List.drop_left' hten, List.drop_one,
      List.tail_cons,
      List.take_of_length_le height.le]
  rw [ofStr, hdate, htime, splitTokens_three (dec_part (by norm_num) (by omega) (by decide))
    (dec_part (by norm_num) (by omega) (by decide)) (dec_part (by norm_num) (by omega) (by decide)),
    splitTokens_three (dec_part (by norm_num) (by omega) (by decide))
    (dec_part (by norm_num) (by omega) (by decide)) (dec_part (by norm_num) (by omega) (by decide))]
  have hyy : UInt8.ofInt (atoi (dec 4 c.year) - 2000) = UInt8.ofNat (c.year - 2000) := by
    rw [atoi_dec (by omega), UInt8.ofInt]
    apply UInt8.toNat_inj.mp
    rw [UInt8.toNat_ofNat', UInt8.toNat_ofNat']
    omega
  simp [setTime, setDate, ofDateTime, hyy, u8_atoi_dec (show c.month < 100 by omega),
    u8_atoi_dec (show c.day < 100 by omega), u8_atoi_dec (show c.hour < 100 by omega),
    u8_atoi_dec (show c.minute < 100 by omega), u8_atoi_dec (show c.second < 100 by omega)]

/-- Two BCD digits are shown as the number. -/
theorem lowHex2_hex2BCD {n : ℕ} (hn : n < 100) : lowHex2 (hex2BCD (UInt8.ofNat n)) = dec 2 n := by
  have h : ∀ n < 100, lowHex2 (hex2BCD (UInt8.ofNat n)) = dec 2 n := by decide
  exact h n hn

/-- The masks keep the digits of every value a register may have. -/
theorem and_timeBits {n : ℕ} : (n < 60 → hex2BCD (UInt8.ofNat n) &&& 0x7f = hex2BCD (UInt8.ofNat n)) ∧
    (n < 40 → hex2BCD (UInt8.ofNat n) &&& 0x3f = hex2BCD (UInt8.ofNat n)) ∧
    (n < 20 → hex2BCD (UInt8.ofNat n) &&& 0x1f = hex2BCD (UInt8.ofNat n)) ∧
    (n < 100 → hex2BCD (UInt8.ofNat n) &&& 0xff = hex2BCD (UInt8.ofNat n)) := by
  have h7 : ∀ n < 60, hex2BCD (UInt8.ofNat n) &&& 0x7f = hex2BCD (UInt8.ofNat n) := by decide
  have h3 : ∀ n < 40, hex2BCD (UInt8.ofNat n) &&& 0x3f = hex2BCD (UInt8.ofNat n) := by decide
  have h1 : ∀ n < 20, hex2BCD (UInt8.ofNat n) &&& 0x1f = hex2BCD (UInt8.ofNat n) := by decide
  have hf : ∀ n < 100, hex2BCD (UInt8.ofNat n) &&& 0xff = hex2BCD (UInt8.ofNat n) := by decide
  exact ⟨h7 n, h3 n, h1 n, hf n⟩

theorem dec_year {year : ℕ} (h : 2000 ≤ year ∧ year < 2100) :
    dec 4 year = lit "20" ++ dec 2 (year - 2000) := by
  have hall : ∀ n < 100, dec 4 (2000 + n) = lit "20" ++ dec 2 n := by decide
  have hyear := hall (year - 2000) (by omega)
  rwa [Nat.add_sub_cancel' h.1] at hyear

/-- What is read is the time, whatever the other bits of the registers are. -/
theorem readTimeStr_initTime (c : DateTime) (h : 2000 ≤ c.year ∧ c.year < 2100) {readTime : List UInt8}
    (hread : ∀ k < 11, masked readTime k = masked (ofDateTime c).initTime k) :
    readTimeStr readTime = timeText c := by
  obtain ⟨-, hm, -, -⟩ := c.date
  obtain ⟨hh, hmin, hs⟩ := c.time
  have hd := c.day_le
  have hyear : masked readTime 8 = hex2BCD (UInt8.ofNat (c.year - 2000)) :=
    (hread 8 (by decide)).trans (and_timeBits.2.2.2 (by omega))
  have hmon : masked readTime 7 = hex2BCD (UInt8.ofNat c.month) :=
    (hread 7 (by decide)).trans (and_timeBits.2.2.1 (by omega))
  have hday : masked readTime 5 = hex2BCD (UInt8.ofNat c.day) :=
    (hread 5 (by decide)).trans (and_timeBits.2.1 (by omega))
  have hhour : masked readTime 4 = hex2BCD (UInt8.ofNat c.hour) :=
    (hread 4 (by decide)).trans (and_timeBits.2.1 (by omega))
  have hminute : masked readTime 3 = hex2BCD (UInt8.ofNat c.minute) :=
    (hread 3 (by decide)).trans (and_timeBits.1 (by omega))
  have hsec : masked readTime 2 = hex2BCD (UInt8.ofNat c.second) :=
    (hread 2 (by decide)).trans (and_timeBits.1 (by omega))
  rw [readTimeStr, hyear, hmon, hday, hhour, hminute, hsec, lowHex2_hex2BCD (by omega),
    lowHex2_hex2BCD (by omega),
    lowHex2_hex2BCD (by omega), lowHex2_hex2BCD (by omega), lowHex2_hex2BCD (by omega),
    lowHex2_hex2BCD (by omega),
    timeText, dec_year h]
  have hdash : lit "-" = [45] := rfl
  have hspace : lit " " = [32] := rfl
  have hcolon : lit ":" = [58] := rfl
  rw [hdash, hspace, hcolon]
  simp only [List.append_assoc, List.cons_append, List.nil_append]

end RtcTd

/-! ### On the bus -/

namespace Iic

open RtcTd

/-- The clock acknowledges, and a register that is read back after `PCF8563_Set` has the bits of the
    time as they were written. -/
structure KeepsTime (dev : IicSlaves) : Prop where
  acks : ∀ t, dev.nack t = false
  keeps : ∀ (t : List IicEvent) (wBuf : List UInt8) (k : ℕ), wBuf.length = 16 → k < 11 →
    dev.byte (readTrace pcf8563SlaveAddr 0x00 (t ++ writeTrace pcf8563SlaveAddr 0x00 wBuf) k) &&&
    timeBits k =
      masked wBuf k

/-- The clock reads back the time that was set. -/
theorem getStr_setStr {dev : IicSlaves} (hdev : KeepsTime dev) (c : DateTime)
    (hc : 2000 ≤ c.year ∧ c.year < 2100)
    (t : List IicEvent) (stack : List UInt8) (rtcTDStr : CStr) : ∃ b,
    (do pcf8563SetStr dev (timeText c); pcf8563GetStr dev stack rtcTDStr : Iic CStr).run ⟨false, t⟩ =
      some (timeText c, b) := by
  have hset : (pcf8563SetStr dev (timeText c)).run ⟨false, t⟩ =
      some ((), ⟨false, t ++ writeTrace pcf8563SlaveAddr 0x00 (ofDateTime c).initTime⟩) := by
    rw [pcf8563SetStr, ofStr_timeText c hc]
    simp only [pcf8563Set]
    rw [bind_assoc, run_bind_of (run_iicWrite hdev.acks rfl 0x00 (by simp [initTime]))]
    rfl
  obtain ⟨b, hget⟩ := run_readTime_acked (b :=
    ⟨false, t ++ writeTrace pcf8563SlaveAddr 0x00 (ofDateTime c).initTime⟩)
    rfl (fun _ => hdev.acks _) stack
  have hregs : ∀ k < 11, masked
    (registers dev (t ++ writeTrace pcf8563SlaveAddr 0x00 (ofDateTime c).initTime) ++
      stack.drop 11) k = masked (ofDateTime c).initTime k := by
    intro k hk
    rw [← hdev.keeps t (ofDateTime c).initTime k rfl hk, masked, List.getD_eq_getElem?_getD,
      List.getElem?_append_left (by simpa [registers] using hk)]
    simp [registers, hk]
  refine ⟨b, ?_⟩
  rw [run_bind_of hset, pcf8563GetStr, run_bind_of hget]
  change some (readTimeStr _, b) = _
  rw [readTimeStr_initTime c hc hregs]

/-- The bytes that were sent. -/
def sent (trace : List IicEvent) : List UInt8 :=
  trace.filterMap fun e => match e with | .send v => some v | _ => none

/-- A chip that keeps the sixteen bytes it was last sent and sets every bit that holds no time. -/
def registerChip : IicSlaves where
  nack _ := false
  byte trace :=
    let k := (trace.reverse.takeWhile (· = .recv true)).length
    (((sent trace).reverse.drop 3).take 16).reverse.getD k 0 ||| ~~~timeBits k

theorem sent_append (t t' : List IicEvent) : sent (t ++ t') = sent t ++ sent t' := List.filterMap_append

theorem sent_buffer (wBuf : List UInt8) :
    sent (wBuf.flatMap fun v => [.send v, .wait false]) = wBuf := by
  induction wBuf with
  | nil => rfl
  | cons v wBuf ih =>
    rw [List.flatMap_cons, sent_append, ih]
    rfl

theorem sent_recv (k : ℕ) : sent (List.replicate k (.recv true)) = [] := by
  induction k with
  | zero => rfl
  | succ k ih => rwa [List.replicate_succ, sent, List.filterMap_cons]

theorem or_not_and (v m : UInt8) : (v ||| ~~~m) &&& m = v &&& m := by
  apply UInt8.eq_of_toBitVec_eq
  ext i hi
  simp only [UInt8.toBitVec_and, UInt8.toBitVec_or, UInt8.toBitVec_not, BitVec.getElem_and,
    BitVec.getElem_or,
    BitVec.getElem_not]
  cases v.toBitVec[i] <;> cases m.toBitVec[i] <;> rfl

theorem keepsTime_registerChip : KeepsTime registerChip := by
  refine ⟨fun _ => rfl, fun t wBuf k hlen _ => ?_⟩
  have hsent : sent (readTrace pcf8563SlaveAddr 0x00 (t ++ writeTrace pcf8563SlaveAddr 0x00 wBuf) k) =
      sent t ++ [0xa2, 0x00] ++ wBuf ++ [0xa2, 0x00, 0xa3] := by
    rw [readTrace, readPoint, writeTrace]
    simp only [sent_append, sent_buffer, sent_recv]
    simp [sent, pcf8563SlaveAddr]
    rfl
  have hk : (readTrace pcf8563SlaveAddr 0x00 (t ++ writeTrace pcf8563SlaveAddr 0x00 wBuf)
    k).reverse.takeWhile
      (· = .recv true) = List.replicate k (.recv true) := by
    rw [readTrace, List.reverse_append, List.reverse_append, List.reverse_replicate,
      List.takeWhile_append_of_pos (by simp)]
    simp
  simp only [registerChip, hsent, hk, List.length_replicate, or_not_and, masked]
  simp [hlen]

def lastSecond : DateTime := ⟨2099, 12, 31, 23, 59, 59, by decide, by decide⟩

example : timeText lastSecond = lit "2099-12-31 23:59:59" := by decide

/-- The last second of the century. -/
theorem getStr_setStr_2099 : ∃ b,
    (do
      pcf8563SetStr registerChip (timeText lastSecond)
      pcf8563GetStr registerChip [] [] : Iic CStr).run ⟨false, []⟩ = some (timeText lastSecond, b) :=
  getStr_setStr keepsTime_registerChip lastSecond (by decide) [] [] []

end Iic

end VectorFence
