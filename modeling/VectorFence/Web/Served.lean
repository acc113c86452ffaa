import Mathlib.Data.List.GetD
import VectorFence.Lib.Run
import VectorFence.Web.Request
import VectorFence.Web.Tags

/-! A file on its way to the browser. Whatever TCP takes of it, and whenever, what it has taken is a
    beginning of the page with its inserts, and all of it when the connection is closed for the end
    of the file.

        sent ++ read, not sent ++ insert that is due ++ not read, with the inserts to come  =  the page

    The four parts move, their sum does not. -/

namespace VectorFence

open CStr

namespace HttpState

/-- How much of a tag has been read. -/
def scan (hs : HttpState) : Web.TagScan :=
  match hs.tagState with
  | .none | .sending => .none
  | .leadin => if hs.tagIndex = 5 then .found [] else .leadin hs.tagIndex
  | .found => .found (hs.tagName.take hs.tagIndex)
  | .leadout => .leadout hs.tagName hs.tagIndex

/-- What is left of the insert. -/
def due (hs : HttpState) : CStr := if hs.tagState = .sending then hs.tagInsert.drop hs.tagIndex else []

/-- What has been read and not been sent. -/
def unsent (hs : HttpState) : CStr := (hs.page.take hs.parsed).drop hs.file

/-- What has not been read. -/
def unread (hs : HttpState) : CStr := hs.page.drop hs.parsed

/-- `tag_index` in its bounds, and `tag_end` where it is used. -/
def IndexOk (hs : HttpState) : Prop :=
  match hs.tagState with
  | .none => True
  | .leadin => 1 ≤ hs.tagIndex ∧ hs.tagIndex ≤ 5
  | .found => hs.tagIndex ≤ hs.tagName.length
  | .leadout => hs.tagIndex ≤ 2
  | .sending => hs.tagEnd = hs.parsed

end HttpState

namespace Web

variable {C σ : Type*} {net : Net C σ} {c : C}

/-- A page with tags while it is sent: `before` is what had been sent before it, `start` where it
    begins, `told` the tags that were called for, with their inserts. -/
structure Serving (net : Net C σ) (c : C) (before : CStr) (start : ℕ) (told : List (CStr × CStr))
    (hs : HttpState)
    (w : σ) : Prop where
  left : hs.file + hs.left = hs.page.length
  read : hs.parsed + hs.parseLeft = hs.page.length
  start_lt : start < hs.page.length
  start_le : start ≤ hs.file
  file_le : hs.file = start ∨ hs.file ≤ hs.parsed
  index : hs.IndexOk
  names : Weave.calls tagStep .none hs.page = told.map Prod.fst ++ Weave.calls tagStep hs.scan hs.unread
  shown : ∀ ins, before ++ Weave.weave tagStep .none start [] hs.page (told.map Prod.snd ++ ins) =
    net.sent c w ++ (hs.unsent ++ Weave.weave tagStep hs.scan (start - hs.parsed) hs.due hs.unread ins)

namespace Serving

variable {before : CStr} {start : ℕ} {told : List (CStr × CStr)} {hs : HttpState} {w : σ}

theorem unread_cons (h : Serving net c before start told hs w) (hleft : hs.parseLeft ≠ 0) :
    hs.unread = hs.cur :: hs.page.drop (hs.parsed + 1) := by
  have hlt : hs.parsed < hs.page.length := by have := h.read; omega
  rw [HttpState.unread, HttpState.cur, List.drop_eq_getElem_cons hlt, List.getD_eq_getElem _ _ hlt]

/-- The byte that is read is one more that is not sent, unless it is in front of the page. -/
theorem unsent_advance (h : Serving net c before start told hs w) (hleft : hs.parseLeft ≠ 0) :
    (hs.page.take (hs.parsed + 1)).drop hs.file = hs.unsent ++ if start - hs.parsed = 0 then
    [hs.cur] else [] := by
  have hlt : hs.parsed < hs.page.length := by have := h.read; omega
  have hcur : hs.page.take (hs.parsed + 1) = hs.page.take hs.parsed ++ [hs.cur] := by
    rw [HttpState.cur, List.getD_eq_getElem _ _ hlt, List.take_concat_get']
  have hlen : (hs.page.take hs.parsed).length = hs.parsed := by rw [List.length_take]; omega
  have := h.start_le
  rw [hcur, HttpState.unsent]
  split_ifs with hs0
  · have hle : hs.file ≤ hs.parsed := by rcases h.file_le with h' | h' <;> omega
    rw [List.drop_append_of_le_length (by omega)]
  · rw [List.drop_eq_nil_of_le (by simp; omega), List.drop_eq_nil_of_le (by omega), List.append_nil]

/-- A byte is read that calls for nothing. -/
theorem quiet (h : Serving net c before start told hs w) (hleft : hs.parseLeft ≠ 0)
    (st : TagState) (i : ℕ)
    (name : CStr) (hst : hs.tagState ≠ .sending) (hst' : st ≠ .sending)
    (hindex : HttpState.IndexOk { hs with tagState := st, tagIndex := i, tagName := name })
    (hstep : tagStep hs.scan hs.cur =
      (HttpState.scan { hs with tagState := st, tagIndex := i, tagName := name }, none)) :
    Serving net c before start told
      { hs with tagState := st, tagIndex := i, tagName := name }.advance w := by
  have hread := h.read
  have hdue : hs.due = [] := by rw [HttpState.due, if_neg hst]
  have hdue' : HttpState.due { hs with tagState := st, tagIndex := i, tagName := name }.advance = []
    := by
    rw [HttpState.due, HttpState.advance, if_neg hst']
  have hindex' : HttpState.IndexOk
    { hs with tagState := st, tagIndex := i, tagName := name }.advance := by
    cases st <;> first | exact hindex | exact absurd rfl hst'
  refine ⟨h.left, ?_, h.start_lt, h.start_le, ?_, hindex', ?_, fun ins => ?_⟩
  · simp only [HttpState.advance, HttpState.page] at hread ⊢
    omega
  · rcases h.file_le with h' | h'
    · exact .inl h'
    · exact .inr (h'.trans (Nat.le_succ _))
  · have hnames := h.names
    rw [h.unread_cons hleft, Weave.calls, hstep] at hnames
    exact hnames
  · have hshown := h.shown ins
    rw [h.unread_cons hleft, hdue, Weave.weave_quiet (by rw [hstep]), hstep, List.nil_append,
      ← List.append_assoc hs.unsent,
      ← h.unsent_advance hleft] at hshown
    rw [hdue']
    exact hshown

theorem pass (h : Serving net c before start told hs w) (hleft : hs.parseLeft ≠ 0)
    (hst : hs.tagState ≠ .sending)
    (hstep : tagStep hs.scan hs.cur = (hs.scan, none)) : Serving net c before start told hs.advance w :=
  h.quiet hleft hs.tagState hs.tagIndex hs.tagName hst hst h.index hstep

/-- What was read is not a tag. -/
theorem reset (h : Serving net c before start told hs w) (hleft : hs.parseLeft ≠ 0)
    (hst : hs.tagState ≠ .sending)
    (hstep : tagStep hs.scan hs.cur = (.none, none)) :
    Serving net c before start told { hs with tagState := .none }.advance w :=
  h.quiet hleft .none hs.tagIndex hs.tagName hst (by simp) trivial hstep

/-- The byte that ends a tag is read: its insert is due. -/
theorem call (h : Serving net c before start told hs w) (hleft : hs.parseLeft ≠ 0)
    (text : CStr) {w' : σ}
    (hw : net.sent c w' = net.sent c w) (hst : hs.tagState ≠ .sending)
    (hstep : tagStep hs.scan hs.cur = (.none, some hs.tagName)) :
    Serving net c before start (told ++ [(hs.tagName, text)])
      { hs.advance with tagInsert := text, tagIndex := 0, tagState := .sending, tagEnd := hs.advance.parsed } w' := by
  have hread := h.read
  have hdue : hs.due = [] := by rw [HttpState.due, if_neg hst]
  refine ⟨h.left, ?_, h.start_lt, h.start_le, ?_, rfl, ?_, fun ins => ?_⟩
  · simp only [HttpState.advance, HttpState.page] at hread ⊢
    omega
  · rcases h.file_le with h' | h'
    · exact .inl h'
    · exact .inr (h'.trans (Nat.le_succ _))
  · have hnames := h.names
    rw [h.unread_cons hleft, Weave.calls, hstep] at hnames
    rw [List.map_append, List.append_assoc]
    exact hnames
  · have hshown := h.shown (text :: ins)
    rw [h.unread_cons hleft, hdue, Weave.weave_call (by rw [hstep]), hstep, List.nil_append,
      ← List.append_assoc hs.unsent,
      ← h.unsent_advance hleft, ← hw] at hshown
    rw [List.map_append, List.append_assoc]
    exact hshown

/-- A piece of what has been read is sent. -/
theorem moved (h : Serving net c before start told hs w) {n : ℕ} (hn : n ≤ hs.parsed - hs.file)
    (hlt : hs.file < hs.parsed) {w' : σ}
    (hw : net.sent c w' = net.sent c w ++ (hs.page.drop hs.file).take n) :
    Serving net c before start told (hs.move n) w' := by
  have hleft := h.left
  have hread := h.read
  have hpiece : (hs.page.drop hs.file).take n = hs.unsent.take n := by
    rw [HttpState.unsent, List.drop_take, List.take_take, min_eq_left hn]
  have hrest : (hs.move n).unsent = hs.unsent.drop n := by
    rw [HttpState.unsent, HttpState.unsent, List.drop_drop]
    rfl
  refine ⟨?_, h.read, h.start_lt, ?_, .inr ?_, h.index, h.names, fun ins => ?_⟩
  · simp only [HttpState.move, HttpState.page] at hleft hread ⊢
    omega
  · exact h.start_le.trans (Nat.le_add_right ..)
  · simp only [HttpState.move]
    omega
  · have hshown := h.shown ins
    rw [← List.take_append_drop n hs.unsent, List.append_assoc, ← List.append_assoc (net.sent c w),
      ← hpiece, ← hw,
      ← hrest] at hshown
    exact hshown

/-- A piece of the insert is sent; everything in front of it has been. -/
theorem inserted (h : Serving net c before start told hs w) (hleft : hs.parseLeft ≠ 0)
    (hst : hs.tagState = .sending)
    (hle : hs.parsed ≤ hs.file) {n : ℕ} {w' : σ}
    (hw : net.sent c w' = net.sent c w ++ (hs.tagInsert.drop hs.tagIndex).take n) :
    Serving net c before start told { hs with tagIndex := hs.tagIndex + n } w' := by
  have hindex := h.index
  have hunread : hs.unread ≠ [] := by rw [h.unread_cons hleft]; exact List.cons_ne_nil _ _
  have hunsent : hs.unsent = [] := by
    refine List.drop_eq_nil_of_le ?_
    rw [List.length_take]
    omega
  have hdue : hs.due = hs.tagInsert.drop hs.tagIndex := by rw [HttpState.due, if_pos hst]
  have hdue' : HttpState.due { hs with tagIndex := hs.tagIndex + n } = hs.due.drop n := by
    rw [HttpState.due, if_pos hst, hdue, List.drop_drop]
  have hscan : HttpState.scan { hs with tagIndex := hs.tagIndex + n } = hs.scan := by
    simp only [HttpState.scan, hst]
  have hindex' : HttpState.IndexOk { hs with tagIndex := hs.tagIndex + n } := by
    simp only [HttpState.IndexOk, hst] at hindex ⊢
    exact hindex
  refine ⟨h.left, h.read, h.start_lt, h.start_le, h.file_le, hindex', ?_, fun ins => ?_⟩
  · rw [hscan]
    exact h.names
  · have hshown := h.shown ins
    rw [← hdue] at hw
    rw [hunsent, Weave.weave_take n _ _ _ hunread, List.nil_append, ← List.append_assoc, ← hw] at hshown
    rw [hscan, hdue']
    have hunsent' : HttpState.unsent { hs with tagIndex := hs.tagIndex + n } = [] := hunsent
    rw [hunsent']
    exact hshown

/-- Nothing is read and nothing is sent. -/
theorem relabel (h : Serving net c before start told hs w) (st : TagState) (i : ℕ)
    (hindex : HttpState.IndexOk { hs with tagState := st, tagIndex := i })
    (hscan : HttpState.scan { hs with tagState := st, tagIndex := i } = hs.scan)
    (hdue : HttpState.due { hs with tagState := st, tagIndex := i } = hs.due) :
    Serving net c before start told { hs with tagState := st, tagIndex := i } w := by
  refine ⟨h.left, h.read, h.start_lt, h.start_le, h.file_le, hindex, ?_, fun ins => ?_⟩
  · rw [hscan]
    exact h.names
  · rw [hscan, hdue]
    exact h.shown ins

/-- The insert has been sent. -/
theorem finished (h : Serving net c before start told hs w) (hst : hs.tagState = .sending)
    (hend : hs.tagInsert.length ≤ hs.tagIndex) :
    Serving net c before start told { hs with tagState := .none, tagIndex := 0 } w := by
  refine h.relabel .none 0 trivial (by simp only [HttpState.scan, hst]) ?_
  rw [HttpState.due, HttpState.due, if_neg (by simp), if_pos hst, List.drop_eq_nil_of_le hend]

end Serving

/-! ### One turn -/

variable {before : CStr} {start : ℕ} {told : List (CStr × CStr)}

/-- The state of a call in which a page is sent. -/
def Going (net : Net C σ) (c : C) (before : CStr) (start : ℕ) (told : List (CStr × CStr))
    (t : Sending σ) : Prop :=
  Serving net c before start (told ++ t.inserts) t.hs t.world

theorem Going.writeFile {t : Sending σ} (h : Going net c before start told t)
    (hlt : t.hs.file < t.hs.parsed)
    (hlen : t.len ≤ t.hs.parsed - t.hs.file) : Going net c before start told (writeFile net c t) := by
  rcases writeFile_cases net c t with ⟨n, w, hn, -, hsent, -, heq⟩ | ⟨err, n, w, -, hsent, heq⟩
  · rw [heq]
    exact Serving.moved h (hn.trans hlen) hlt hsent
  · rw [heq]
    exact ⟨h.left, h.read, h.start_lt, h.start_le, h.file_le, h.index, h.names, fun ins => by
      rw [hsent]
      exact h.shown ins⟩

theorem sent_getTagInsert (name : CStr) (w : σ) (c' : C) :
    net.sent c' (getTagInsert net name w).2 = net.sent c' w := by
  rw [getTagInsert]
  split
  · exact net.sent_ssiHandler ..
  · rfl

theorem Going.tagFound {t : Sending σ} (h : Going net c before start told t)
    (hleft : t.hs.parseLeft ≠ 0)
    (hst : t.hs.tagState ≠ .sending) (hstep : tagStep t.hs.scan t.hs.cur = (.none, some t.hs.tagName)) :
    Going net c before start told (tagFound net c { t with hs := t.hs.advance }) := by
  have hcall : Going net c before start told (callTag net { t with hs := t.hs.advance }) := by
    have := Serving.call h hleft (overTagState (getTagInsert net t.hs.tagName t.world).1)
      (sent_getTagInsert t.hs.tagName t.world c) hst hstep
    rw [List.append_assoc] at this
    exact this
  simp only [Web.tagFound]
  split_ifs with hlt
  · exact Going.writeFile (t := { callTag net { t with hs := t.hs.advance } with len := _ }) hcall hlt
      (by rw [clip_eq]; exact min_le_right ..)
  · exact hcall

/-- Outside of a tag a byte is passed, or it begins a lead-in. -/
theorem Going.parseTag_none {t : Sending σ} (h : Going net c before start told t)
    (hleft : t.hs.parseLeft ≠ 0) (hst : t.hs.tagState = .none) :
    Going net c before start told (Web.parseTag net c t) := by
  rw [Web.parseTag]
  have hne : t.hs.tagState ≠ .sending := by simp [hst]
  have hscan : t.hs.scan = .none := by simp only [HttpState.scan, hst]
  simp only [hst]
  split_ifs with hch
  · exact Serving.quiet h hleft .leadin 1 t.hs.tagName hne (by simp) ⟨le_rfl, by norm_num⟩
      (by rw [hscan, hch]; rfl)
  · refine Serving.pass h hleft hne ?_
    rw [hscan, tagStep, if_neg (by simpa [leadIn_eq] using hch)]

/-- The lead-in goes on, breaks off or is complete. -/
theorem Going.parseTag_leadin {t : Sending σ} (h : Going net c before start told t)
    (hleft : t.hs.parseLeft ≠ 0) (hst : t.hs.tagState = .leadin) :
    Going net c before start told (Web.parseTag net c t) := by
  have hindex := h.index
  rw [Web.parseTag]
  have hne : t.hs.tagState ≠ .sending := by simp [hst]
  simp only [HttpState.IndexOk, hst] at hindex
  simp only [hst]
  split_ifs with hend hch
  · -- nothing is read: the lead-in is complete
    have hfive : t.hs.tagIndex = 5 := hend
    exact Serving.relabel h .found 0 (Nat.zero_le _)
      (by simp only [HttpState.scan, hst, if_pos hfive, List.take_zero])
      (by simp [HttpState.due, hst])
  · have hlt : t.hs.tagIndex ≠ 5 := hend
    have hscan : t.hs.scan = .leadin t.hs.tagIndex := by simp only [HttpState.scan, hst, if_neg hlt]
    refine Serving.quiet h hleft .leadin (t.hs.tagIndex + 1) t.hs.tagName hne (by simp) ?_ ?_
    · simp only [HttpState.IndexOk]
      omega
    · rw [hscan, tagStep, if_pos hch]
      simp only [HttpState.scan]
      rfl
  · have hlt : t.hs.tagIndex ≠ 5 := hend
    refine Serving.reset h hleft hne ?_
    simp only [HttpState.scan, hst, if_neg hlt, tagStep, if_neg hch]

/-- The name goes on, breaks off or ends where the lead-out begins. -/
theorem Going.parseTag_found {t : Sending σ} (h : Going net c before start told t)
    (hleft : t.hs.parseLeft ≠ 0) (hst : t.hs.tagState = .found) :
    Going net c before start told (Web.parseTag net c t) := by
  have hindex := h.index
  rw [Web.parseTag]
  have hne : t.hs.tagState ≠ .sending := by simp [hst]
  have hscan : t.hs.scan = .found (t.hs.tagName.take t.hs.tagIndex) := by
    simp only [HttpState.scan, hst]
  simp only [HttpState.IndexOk, hst] at hindex
  have hlength : (t.hs.tagName.take t.hs.tagIndex).length = t.hs.tagIndex := by
    rw [List.length_take, min_eq_left hindex]
  have hnil : t.hs.tagName.take t.hs.tagIndex = [] ↔ t.hs.tagIndex = 0 := by
    rw [← List.length_eq_zero_iff, hlength]
  have hdash : gPcTagLeadOut.getD 0 0 = 45 := rfl
  simp only [hst, hdash]
  split_ifs with hblank hend hzero hch hlen
  · refine Serving.pass h hleft hne ?_
    rw [hscan, tagStep, if_pos (.inr hblank.2), if_pos (hnil.mpr hblank.1), if_pos hblank.2,
      hnil.mpr hblank.1]
  · refine Serving.reset h hleft hne ?_
    rw [hscan, tagStep, if_pos hend, if_pos (hnil.mpr hzero), if_neg fun hb => hblank ⟨hzero, hb⟩]
  · exact Serving.quiet h hleft .leadout 1 (t.hs.tagName.take t.hs.tagIndex) hne (by simp)
      (by norm_num [HttpState.IndexOk])
      (by rw [hscan, tagStep, if_pos hend, if_neg (mt hnil.mp hzero), if_pos hch]; rfl)
  · exact Serving.quiet h hleft .leadout 0 (t.hs.tagName.take t.hs.tagIndex) hne (by simp)
      (Nat.zero_le _)
      (by rw [hscan, tagStep, if_pos hend, if_neg (mt hnil.mp hzero), if_neg hch]; rfl)
  · refine Serving.quiet h hleft .found (t.hs.tagIndex + 1)
      (t.hs.tagName.take t.hs.tagIndex ++ [t.hs.cur]) hne
      (by simp) ?_ ?_
    · simp only [HttpState.IndexOk, List.length_append, hlength, List.length_singleton, le_refl]
    · rw [hscan, tagStep, if_neg hend, if_pos (by rw [hlength]; exact hlen)]
      have htake : (t.hs.tagName.take t.hs.tagIndex ++ [t.hs.cur]).take (t.hs.tagIndex + 1) =
          t.hs.tagName.take t.hs.tagIndex ++ [t.hs.cur] := List.take_of_length_le (by simp [hlength])
      simp only [HttpState.scan, htake]
  · refine Serving.reset h hleft hne ?_
    rw [hscan, tagStep, if_neg hend, if_neg (by rw [hlength]; exact hlen)]

/-- The lead-out goes on, breaks off or completes the tag. -/
theorem Going.parseTag_leadout {t : Sending σ} (h : Going net c before start told t)
    (hleft : t.hs.parseLeft ≠ 0) (hst : t.hs.tagState = .leadout) :
    Going net c before start told (Web.parseTag net c t) := by
  have hindex := h.index
  rw [Web.parseTag]
  have hne : t.hs.tagState ≠ .sending := by simp [hst]
  have hscan : t.hs.scan = .leadout t.hs.tagName t.hs.tagIndex := by simp only [HttpState.scan, hst]
  simp only [HttpState.IndexOk, hst] at hindex
  simp only [hst]
  split_ifs with hblank hch hend
  · refine Serving.pass h hleft hne ?_
    rw [hscan, tagStep, if_pos hblank, hblank.1]
  · have htwo : t.hs.tagIndex + 1 = gPcTagLeadOut.length := by rw [hend]; rfl
    refine Going.tagFound h hleft hne ?_
    rw [hscan, tagStep, if_neg hblank, if_pos hch, if_pos htwo]
  · have htwo : t.hs.tagIndex ≠ 2 := hend
    have hthree : t.hs.tagIndex + 1 ≠ gPcTagLeadOut.length := fun h => htwo (Nat.succ.inj h)
    refine Serving.quiet h hleft .leadout (t.hs.tagIndex + 1) t.hs.tagName hne (by simp) ?_ ?_
    · simp only [HttpState.IndexOk]
      omega
    · rw [hscan, tagStep, if_neg hblank, if_pos hch, if_neg hthree]
      rfl
  · refine Serving.reset h hleft hne ?_
    rw [hscan, tagStep, if_neg hblank, if_neg hch]

/-- The page up to the tag is sent, then the insert. -/
theorem Going.parseTag_sending {t : Sending σ} (h : Going net c before start told t)
    (hleft : t.hs.parseLeft ≠ 0) (hst : t.hs.tagState = .sending) :
    Going net c before start told (Web.parseTag net c t) := by
  have hindex := h.index
  rw [Web.parseTag]
  simp only [HttpState.IndexOk, hst] at hindex
  simp only [hst]
  split_ifs with hend hzero hlt
  · rw [hindex] at hend ⊢
    exact Going.writeFile (t := { t with len := _ }) h hend (by rw [clip_eq]; exact min_le_right ..)
  · exact h
  · rcases writeInsert_cases net c
      { t with len := clip t.len (t.hs.tagInsert.length - t.hs.tagIndex) } with
      ⟨n, w, -, -, hsent, -, heq⟩ | ⟨err, n, w, -, hsent, heq⟩
    · rw [heq]
      exact Serving.inserted h hleft hst (by omega) hsent
    · rw [heq]
      exact ⟨h.left, h.read, h.start_lt, h.start_le, h.file_le, h.index, h.names, fun ins => by
        rw [hsent]
        exact h.shown ins⟩
  · exact Serving.finished h hst (by omega)

theorem Going.parseTag {t : Sending σ} (h : Going net c before start told t)
    (hleft : t.hs.parseLeft ≠ 0) : Going net c before start told (parseTag net c t) := by
  cases hst : t.hs.tagState with
  | none => exact h.parseTag_none hleft hst
  | leadin => exact h.parseTag_leadin hleft hst
  | found => exact h.parseTag_found hleft hst
  | leadout => exact h.parseTag_leadout hleft hst
  | sending => exact h.parseTag_sending hleft hst

/-! ### A call -/

theorem Going.parseTags {t : Sending σ} (h : Going net c before start told t) :
    Going net c before start told (parseTags net c t).1 := by
  fun_induction Web.parseTags net c t with
  | case1 t hcond hlen => exact h
  | case2 t hcond hlen ih => exact ih (h.parseTag hcond.1)
  | case3 t hcond => exact h

/-- A file that is sent without a look at it. -/
structure Passing (net : Net C σ) (c : C) (before : CStr) (start : ℕ) (hs : HttpState) (w : σ) :
    Prop where
  left : hs.file + hs.left = hs.page.length
  shown : before ++ hs.page.drop start = net.sent c w ++ hs.page.drop hs.file

/-- A file on its way: where it begins, and the inserts so far. -/
def OnWay (net : Net C σ) (c : C) (before : CStr) (start : ℕ) (told : List (CStr × CStr))
    (hs : HttpState) (w : σ) : Prop :=
  if hs.tagCheck then Serving net c before start told hs w
  else Passing net c before start hs w ∧ told = []

/-- What is sent of a file whose tags are answered with `ins`. -/
def content (tagCheck : Bool) (start : ℕ) (page : CStr) (ins : List CStr) : CStr :=
  if tagCheck then Weave.weave tagStep .none start [] page ins else page.drop start

/-- The inserts that are sent: the tags are asked for in the order of the page, but with the last
    byte the loop ends, and a text that this byte has asked for is not sent. -/
def shown (page : CStr) (told : List (CStr × CStr)) : List CStr :=
  (told.map Prod.snd).take (Weave.calls tagStep .none page.dropLast).length

theorem content_shown (tagCheck : Bool) (start : ℕ) (page : CStr) (told : List (CStr × CStr)) :
    content tagCheck start page (shown page told) =
      content tagCheck start page (told.map Prod.snd) := by
  rw [content, content, shown, Weave.weave_take_calls]

/-- The data of the file does not change while it is sent. -/
structure SameFile (hs hs' : HttpState) : Prop where
  handle : hs'.handle = hs.handle
  tagCheck : hs'.tagCheck = hs.tagCheck
  req : hs'.req = hs.req
  retries : hs'.retries = hs.retries

theorem SameFile.refl (hs : HttpState) : SameFile hs hs := ⟨rfl, rfl, rfl, rfl⟩

theorem SameFile.trans {hs hs' hs'' : HttpState} (h : SameFile hs hs') (h' : SameFile hs' hs'') :
    SameFile hs hs'' :=
  ⟨h'.handle.trans h.handle, h'.tagCheck.trans h.tagCheck, h'.req.trans h.req,
    h'.retries.trans h.retries⟩

theorem SameFile.page {hs hs' : HttpState} (h : SameFile hs hs') : hs'.page = hs.page := by
  rw [HttpState.page, HttpState.page, h.handle]

/-- The insert for a tag is what its handler says, or the error marker, if `tag_insert` holds it. -/
def Answered (net : Net C σ) (e : CStr × CStr) : Prop :=
  ∃ w, e.2 = overTagState (getTagInsert net e.1 w).1 ∧
    (e.2.length ≤ lwipHttpdMaxTagInsertLen → e.2 = (getTagInsert net e.1 w).1)

theorem answered_getTagInsert (net : Net C σ) (name : CStr) (w : σ) :
    Answered net (name, overTagState (getTagInsert net name w).1) :=
  ⟨w, rfl, fun h => overTagState_of_le ((length_overTagState _).symm.trans_le h)⟩

/-- What every part of a call keeps, from `hs`, `w` and `ins` on: the file, and what was sent; the
    inserts are answers. -/
structure Kept (net : Net C σ) (c : C) (hs : HttpState) (w : σ) (ins : List (CStr × CStr))
    (t : Sending σ) : Prop where
  same : SameFile hs t.hs
  sent : net.sent c w <+: net.sent c t.world
  others : ∀ c' ≠ c, net.sent c' t.world = net.sent c' w
  answered : ∃ more, t.inserts = ins ++ more ∧ ∀ e ∈ more, Answered net e

namespace Kept

variable {hs : HttpState} {w : σ} {ins : List (CStr × CStr)} {t : Sending σ}

variable (net c) in
theorem refl (t : Sending σ) : Kept net c t.hs t.world t.inserts t :=
  ⟨SameFile.refl _, List.prefix_rfl, fun _ _ => rfl, [], (List.append_nil _).symm, by simp⟩

/-- A part that leaves the inserts alone. -/
theorem next (h : Kept net c hs w ins t) {t' : Sending σ} (hsame : SameFile t.hs t'.hs)
    (hsent : net.sent c t.world <+: net.sent c t'.world)
    (hothers : ∀ c' ≠ c, net.sent c' t'.world = net.sent c' t.world)
    (hins : t'.inserts = t.inserts) : Kept net c hs w ins t' := by
  refine ⟨h.same.trans hsame, h.sent.trans hsent,
    fun c' hc => (hothers c' hc).trans (h.others c' hc), ?_⟩
  rw [hins]
  exact h.answered

theorem of_hs (h : Kept net c hs w ins t) {t' : Sending σ} (hsame : SameFile t.hs t'.hs)
    (hworld : t'.world = t.world)
    (hins : t'.inserts = t.inserts) : Kept net c hs w ins t' :=
  h.next hsame (by rw [hworld]) (fun _ _ => by rw [hworld]) hins

theorem writeFile (h : Kept net c hs w ins t) : Kept net c hs w ins (writeFile net c t) := by
  rcases writeFile_cases net c t with ⟨n, w', -, -, hsent, hne, heq⟩ | ⟨err, n, w', -, hsent, heq⟩
  · rw [heq]
    exact h.next ⟨rfl, rfl, rfl, rfl⟩ ⟨_, hsent.symm⟩ hne rfl
  · rw [heq]
    exact h.next (SameFile.refl _) ⟨[], by rw [List.append_nil, hsent]⟩ (fun c' _ => hsent c') rfl

theorem writeInsert (h : Kept net c hs w ins t) : Kept net c hs w ins (writeInsert net c t) := by
  rcases writeInsert_cases net c t with ⟨n, w', -, -, hsent, hne, heq⟩ | ⟨err, n, w', -, hsent, heq⟩
  · rw [heq]
    exact h.next ⟨rfl, rfl, rfl, rfl⟩ ⟨_, hsent.symm⟩ hne rfl
  · rw [heq]
    exact h.next (SameFile.refl _) ⟨[], by rw [List.append_nil, hsent]⟩ (fun c' _ => hsent c') rfl

theorem callTag (h : Kept net c hs w ins t) : Kept net c hs w ins (callTag net t) := by
  obtain ⟨more, heq, hmore⟩ := h.answered
  refine ⟨h.same.trans ⟨rfl, rfl, rfl, rfl⟩, ?_,
    fun c' hc => (sent_getTagInsert ..).trans (h.others c' hc),
    more ++ [(t.hs.tagName, overTagState (getTagInsert net t.hs.tagName t.world).1)], ?_,
    fun e he => ?_⟩
  · simp only [Web.callTag, sent_getTagInsert]
    exact h.sent
  · simp only [Web.callTag, heq, List.append_assoc]
  · rcases List.mem_append.mp he with he | he
    · exact hmore e he
    · rw [List.mem_singleton.mp he]
      exact answered_getTagInsert net t.hs.tagName t.world

theorem tagFound (h : Kept net c hs w ins t) : Kept net c hs w ins (tagFound net c t) := by
  simp only [Web.tagFound]
  split_ifs
  · exact Kept.writeFile (h.callTag.of_hs (SameFile.refl _) rfl rfl)
  · exact h.callTag

theorem parseTag (h : Kept net c hs w ins t) : Kept net c hs w ins (parseTag net c t) := by
  rw [Web.parseTag]
  cases t.hs.tagState with
  | none | leadin | found =>
    simp only
    split_ifs <;> exact h.of_hs ⟨rfl, rfl, rfl, rfl⟩ rfl rfl
  | leadout =>
    simp only
    split_ifs
    · exact h.of_hs ⟨rfl, rfl, rfl, rfl⟩ rfl rfl
    · exact Kept.tagFound (h.of_hs ⟨rfl, rfl, rfl, rfl⟩ rfl rfl)
    · exact h.of_hs ⟨rfl, rfl, rfl, rfl⟩ rfl rfl
    · exact h.of_hs ⟨rfl, rfl, rfl, rfl⟩ rfl rfl
  | sending =>
    simp only
    split_ifs
    · exact Kept.writeFile (h.of_hs (SameFile.refl _) rfl rfl)
    · exact h.of_hs (SameFile.refl _) rfl rfl
    · exact Kept.writeInsert (h.of_hs (SameFile.refl _) rfl rfl)
    · exact h.of_hs ⟨rfl, rfl, rfl, rfl⟩ rfl rfl

theorem parseTags (h : Kept net c hs w ins t) : Kept net c hs w ins (parseTags net c t).1 := by
  fun_induction Web.parseTags net c t with
  | case1 t hcond hlen => exact h
  | case2 t hcond hlen ih => exact ih h.parseTag
  | case3 t hcond => exact h

theorem sendUnsent (h : Kept net c hs w ins t) : Kept net c hs w ins (sendUnsent net c t) := by
  rw [Web.sendUnsent]
  split_ifs
  · exact Kept.writeFile (h.of_hs (SameFile.refl _) rfl rfl)
  · exact h

end Kept

theorem room_le (w : σ) (avail : ℕ) : room net c w avail ≤ avail := by
  simp only [room]
  split_ifs <;> omega

/-- What a call leaves behind: with nothing left the connection may be closed. -/
structure Called (net : Net C σ) (c : C) (hs : HttpState) (w : σ) (r : Sent σ) : Prop where
  same : SameFile hs r.hs
  sent : net.sent c w <+: net.sent c r.world
  others : ∀ c' ≠ c, net.sent c' r.world = net.sent c' w
  answered : ∀ e ∈ r.inserts, Answered net e
  left_of_closed : r.closed = true → r.hs.left = 0

theorem Kept.ret {hs : HttpState} {w : σ} {t : Sending σ} (h : Kept net c hs w [] t) :
    Called net c hs w t.ret := by
  obtain ⟨more, heq, hmore⟩ := h.answered
  exact ⟨h.same, h.sent, h.others, by rw [Sending.ret, heq]; exact hmore, by simp [Sending.ret]⟩

theorem called_sendEnd {hs : HttpState} {w : σ} {t : Sending σ} (h : Kept net c hs w [] t) :
    Called net c hs w (sendEnd t) := by
  rw [sendEnd]
  split_ifs with hleft
  · exact ⟨h.ret.same, h.ret.sent, h.ret.others, h.ret.answered, fun _ => hleft⟩
  · exact h.ret

variable (net c) in
theorem kept_sendRead (hs : HttpState) (w : σ) : Kept net c hs w [] (sendRead net c hs w) := by
  rw [sendRead]
  split_ifs
  · exact Kept.writeFile (Kept.refl net c { hs := hs, world := w, len := _ })
  · exact Kept.refl net c { hs := hs, world := w, len := _ }

variable (net c) in
/-- The three ways a call on a page with tags can end. -/
theorem sendTags_cases (hs : HttpState) (w : σ) :
    sendTags net c hs w = (sendRead net c hs w).ret ∨
      sendTags net c hs w = (parseTags net c (sendRead net c hs w)).1.ret ∨
      sendTags net c hs w = sendEnd (sendUnsent net c (parseTags net c (sendRead net c hs w)).1) := by
  simp only [sendTags]
  split_ifs
  · exact .inl rfl
  · exact .inr (.inl rfl)
  · exact .inr (.inr rfl)

variable (net c) in
theorem called_httpSendData (hs : HttpState) (w : σ) : Called net c hs w (httpSendData net c hs w) := by
  rw [httpSendData]
  split_ifs with hleft htag
  · exact ⟨SameFile.refl hs, List.prefix_rfl, fun _ _ => rfl, by simp, fun _ => hleft⟩
  · exact called_sendEnd (Kept.writeFile (Kept.refl net c { hs := hs, world := w, len := _ }))
  · rcases sendTags_cases net c hs w with h | h | h
    · rw [h]
      exact (kept_sendRead net c hs w).ret
    · rw [h]
      exact (kept_sendRead net c hs w).parseTags.ret
    · rw [h]
      exact called_sendEnd (kept_sendRead net c hs w).parseTags.sendUnsent

theorem Going.sendUnsent {t : Sending σ} (h : Going net c before start told t) :
    Going net c before start told (sendUnsent net c t) := by
  rw [Web.sendUnsent]
  split_ifs with hlt
  · exact Going.writeFile (t := { t with len := _ }) h hlt.2 (room_le ..)
  · exact h

theorem going_sendRead {hs : HttpState} {w : σ} (h : Serving net c before start told hs w) :
    Going net c before start told (sendRead net c hs w) := by
  have hstart (len : ℕ) : Going net c before start told { hs := hs, world := w, len := len } := by
    rw [Going, List.append_nil]
    exact h
  rw [sendRead]
  split_ifs with hlt
  · exact Going.writeFile (hstart _) hlt (room_le ..)
  · exact hstart _

theorem sendEnd_hs (t : Sending σ) :
    (sendEnd t).hs = t.hs ∧ (sendEnd t).world = t.world ∧ (sendEnd t).inserts = t.inserts := by
  rw [sendEnd]
  split_ifs <;> exact ⟨rfl, rfl, rfl⟩

theorem serving_sendTags {hs : HttpState} {w : σ} (h : Serving net c before start told hs w) :
    Serving net c before start (told ++ (sendTags net c hs w).inserts) (sendTags net c hs w).hs
    (sendTags net c hs w).world := by
  have hread := going_sendRead h
  rcases sendTags_cases net c hs w with heq | heq | heq
  · rw [heq]
    exact hread
  · rw [heq]
    exact hread.parseTags
  · obtain ⟨hhs, hworld, hinserts⟩ :=
      sendEnd_hs (sendUnsent net c (parseTags net c (sendRead net c hs w)).1)
    rw [heq, hhs, hworld, hinserts]
    exact hread.parseTags.sendUnsent

/-- A piece of a file without tags. -/
theorem Passing.writeFile {hs : HttpState} {w : σ} (h : Passing net c before start hs w) {len : ℕ}
    (hlen : len ≤ hs.left) :
    Passing net c before start (writeFile net c { hs := hs, world := w, len := len }).hs
        (Web.writeFile net c { hs := hs, world := w, len := len }).world ∧
      (Web.writeFile net c { hs := hs, world := w, len := len }).inserts = [] := by
  have hleft := h.left
  rcases writeFile_cases net c { hs := hs, world := w, len := len } with
    ⟨n, w', hn, -, hsent, -, heq⟩ | ⟨err, n, w', -, hsent, heq⟩
  · rw [heq]
    refine ⟨⟨?_, ?_⟩, rfl⟩
    · have : n ≤ len := hn
      simp only [HttpState.move, HttpState.page] at hleft ⊢
      omega
    · have hdrop : (hs.move n).page.drop (hs.move n).file = (hs.page.drop hs.file).drop n := by
        rw [List.drop_drop]
        rfl
      simp only at hsent ⊢
      rw [hdrop, hsent, List.append_assoc, List.take_append_drop]
      exact h.shown
  · rw [heq]
    exact ⟨⟨hleft, h.shown.trans (congrArg (· ++ _) (hsent c).symm)⟩, rfl⟩

/-- A call of `http_send_data` keeps the file on its way. -/
theorem OnWay.httpSendData {hs : HttpState} {w : σ} (h : OnWay net c before start told hs w) :
    OnWay net c before start (told ++ (httpSendData net c hs w).inserts) (httpSendData net c hs w).hs
      (httpSendData net c hs w).world := by
  have hsame := (called_httpSendData net c hs w).same.tagCheck
  rw [OnWay] at h ⊢
  rw [hsame]
  by_cases htag : hs.tagCheck = true
  · rw [if_pos htag] at h ⊢
    rw [Web.httpSendData]
    split_ifs with hleft hplain
    · rw [List.append_nil]
      exact h
    · rw [hplain] at htag
      cases htag
    · exact serving_sendTags h
  · rw [if_neg htag] at h ⊢
    obtain ⟨hpass, rfl⟩ := h
    rw [Web.httpSendData]
    split_ifs with hleft hplain
    · exact ⟨hpass, rfl⟩
    · obtain ⟨hhs, hworld, hinserts⟩ :=
        sendEnd_hs (writeFile net c { hs := hs, world := w, len := room net c w hs.left })
      obtain ⟨hpass', hnone⟩ := hpass.writeFile (room_le w hs.left)
      rw [hhs, hworld, hinserts, hnone]
      exact ⟨hpass', rfl⟩
    · exact absurd (by simpa using hplain) htag

/-- What TCP has taken is a beginning of the page, whatever its inserts will be. -/
theorem OnWay.begins {hs : HttpState} {w : σ} (h : OnWay net c before start told hs w)
    (ins : List CStr) :
    net.sent c w <+: before ++ content hs.tagCheck start hs.page (told.map Prod.snd ++ ins) := by
  rw [OnWay] at h
  split_ifs at h with htag
  · rw [htag, content, if_pos rfl, h.shown ins]
    exact List.prefix_append ..
  · rw [content, if_neg htag, h.1.shown]
    exact List.prefix_append ..

/-- With nothing left it is the whole page. -/
theorem OnWay.complete {hs : HttpState} {w : σ} (h : OnWay net c before start told hs w)
    (hleft : hs.left = 0) :
    net.sent c w = before ++ content hs.tagCheck start hs.page (told.map Prod.snd) := by
  rw [OnWay] at h
  split_ifs at h with htag
  · have hfile := h.left
    have hread := h.read
    have hlt := h.start_lt
    have hparsed : hs.page.length ≤ hs.parsed := by rcases h.file_le with h' | h' <;> omega
    have hshown := h.shown []
    rw [HttpState.unsent, HttpState.unread, List.drop_eq_nil_of_le hparsed, Weave.weave_nil,
      List.append_nil,
      List.drop_eq_nil_of_le (by rw [List.length_take]; omega), List.append_nil,
      List.append_nil] at hshown
    rw [htag, content, if_pos rfl, hshown]
  · have hfile := h.1.left
    rw [content, if_neg htag, h.1.shown, List.drop_eq_nil_of_le (by omega), List.append_nil]

/-- When it has been read every tag has been called for. -/
theorem OnWay.all_names {hs : HttpState} {w : σ} (h : OnWay net c before start told hs w)
    (htag : hs.tagCheck = true)
    (hleft : hs.left = 0) : told.map Prod.fst = Weave.calls tagStep .none hs.page := by
  rw [OnWay, if_pos htag] at h
  have hfile := h.left
  have hread := h.read
  have hlt := h.start_lt
  have hparsed : hs.page.length ≤ hs.parsed := by rcases h.file_le with h' | h' <;> omega
  rw [h.names, HttpState.unread, List.drop_eq_nil_of_le hparsed, Weave.calls, List.append_nil]

/-- The tags that were called for are the first ones of the page. -/
theorem OnWay.names {hs : HttpState} {w : σ} (h : OnWay net c before start told hs w)
    (htag : hs.tagCheck = true) :
    told.map Prod.fst <+: Weave.calls tagStep .none hs.page := by
  rw [OnWay, if_pos htag] at h
  rw [h.names]
  exact List.prefix_append ..

end Web

end VectorFence
