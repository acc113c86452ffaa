import VectorFence.Web.Served

/-! A file from the request to the end of the connection. `http_send_data` is called when the
    request is there, when TCP has room again and every two seconds; between two calls the rest of
    the system goes on. -/

namespace VectorFence

open CStr

namespace Web

variable {C σ : Type*} {net : Net C σ} {c : C}

theorem strnstr_le {token : CStr} :
    ∀ {s : CStr} {n i : ℕ}, strnstr token s n = some i → i + token.length ≤ n
  | [], _, _, h => by simp [strnstr] at h
  | ch :: s, n, i, h => by
      rw [strnstr] at h
      split_ifs at h with hend hpre
      · obtain rfl : 0 = i := by simpa using h
        have := (not_or.mp hend).2
        omega
      · rw [Option.map_eq_some_iff] at h
        obtain ⟨j, hj, rfl⟩ := h
        have hlen := (not_or.mp hend).2
        have := strnstr_le hj
        rw [List.isPrefixOf_iff_prefix] at hpre
        rcases Nat.eq_zero_or_pos n with rfl | hpos
        · have htoken : token = [] := List.length_eq_zero_iff.mp (by omega)
          exact absurd (by rw [htoken]; exact List.nil_prefix) hpre
        · omega

theorem httpInitFile_some (hs : HttpState) (file : FsFile) (is09 : Bool) :
    let hs' := httpInitFile hs (some file) is09
    hs'.page = file.data ∧ hs'.file + hs'.left = file.data.length ∧ hs'.parsed = 0 ∧
      hs'.parseLeft = file.data.length ∧ hs'.tagState = .none ∧ hs'.tagCheck = hs.tagCheck := by
  simp only [httpInitFile]
  split_ifs with h09
  · cases hn : strnstr (crlf ++ crlf) file.data file.data.length with
    | none => exact ⟨rfl, Nat.zero_add _, rfl, rfl, rfl, rfl⟩
    | some n =>
      have : n + 4 ≤ file.data.length := strnstr_le hn
      refine ⟨rfl, ?_, rfl, rfl, rfl, rfl⟩
      simp only [HttpState.move]
      omega
  · exact ⟨rfl, Nat.zero_add _, rfl, rfl, rfl, rfl⟩

variable (net c) in
/-- A file that has been found is on its way, if there is something of it to send. -/
theorem onWay_httpInitFile (hs : HttpState) (file : FsFile) (is09 : Bool) (w : σ)
    (hleft : (httpInitFile hs (some file) is09).left ≠ 0) :
    OnWay net c (net.sent c w) (httpInitFile hs (some file) is09).file []
    (httpInitFile hs (some file) is09) w := by
  obtain ⟨hpage, hfile, hparsed, hparse, hstate, htag⟩ := httpInitFile_some hs file is09
  revert hleft hpage hfile hparsed hparse hstate htag
  generalize httpInitFile hs (some file) is09 = hs'
  intro hleft hpage hfile hparsed hparse hstate htag
  rw [← hpage] at hfile hparse
  rw [OnWay]
  split_ifs with hcheck
  · have hscan : hs'.scan = .none := by simp only [HttpState.scan, hstate]
    have hdue : hs'.due = [] := by rw [HttpState.due, hstate, if_neg (by simp)]
    refine ⟨hfile, by omega, by omega, le_rfl, .inl rfl, ?_, ?_, fun ins => ?_⟩
    · simp only [HttpState.IndexOk, hstate]
    · simp only [hscan, HttpState.unread, hparsed, List.drop_zero, List.map_nil, List.nil_append]
    · simp only [hscan, hdue, HttpState.unread, HttpState.unsent, hparsed, List.drop_zero,
        List.take_zero, List.drop_nil,
        List.map_nil, List.nil_append, Nat.sub_zero]
  · exact ⟨⟨hfile, rfl⟩, rfl⟩

/-! ### Runs -/

/-- A call of `http_send_data`, or whatever else happens. -/
inductive Beat (σ : Type*) where
  | call
  | world (f : σ → σ)

/-- A connection with a file, the rest of the system, and the tags that have been answered. -/
structure Delivery (σ : Type*) where
  hs : HttpState
  world : σ
  told : List (CStr × CStr) := []
  closed : Bool := false

namespace Delivery

/-- When the connection is closed, its state is gone. -/
def step (net : Net C σ) (c : C) (d : Delivery σ) : Beat σ → Delivery σ
  | .call =>
      if d.closed then d
      else
        let r := httpSendData net c d.hs d.world
        ⟨r.hs, r.world, d.told ++ r.inserts, r.closed⟩
  | .world f => { d with world := f d.world }

/-- What else happens sends nothing for this connection. -/
def Quiet (net : Net C σ) (c : C) : Beat σ → Prop
  | .call => True
  | .world f => ∀ w, net.sent c (f w) = net.sent c w

/-- What holds of a delivery of the page of `hs`. -/
structure Fine (net : Net C σ) (c : C) (before : CStr) (start : ℕ) (hs : HttpState)
    (d : Delivery σ) : Prop where
  same : SameFile hs d.hs
  onWay : OnWay net c before start d.told d.hs d.world
  answered : ∀ e ∈ d.told, Answered net e
  left_of_closed : d.closed = true → d.hs.left = 0

theorem onWay_world {before : CStr} {start : ℕ} {told : List (CStr × CStr)} {hs : HttpState} {w w' : σ}
    (h : OnWay net c before start told hs w) (hw : net.sent c w' = net.sent c w) :
    OnWay net c before start told hs w' := by
  rw [OnWay] at h ⊢
  split_ifs at h ⊢ with htag
  · exact ⟨h.left, h.read, h.start_lt, h.start_le, h.file_le, h.index, h.names, fun ins => by
      rw [hw]
      exact h.shown ins⟩
  · exact ⟨⟨h.1.left, by rw [hw]; exact h.1.shown⟩, h.2⟩

theorem fine_step {before : CStr} {start : ℕ} {hs : HttpState} {d : Delivery σ} {b : Beat σ}
    (h : Fine net c before start hs d) (hb : Quiet net c b) :
    Fine net c before start hs (step net c d b) := by
  cases b with
  | world f => exact ⟨h.same, onWay_world h.onWay (hb d.world), h.answered, h.left_of_closed⟩
  | call =>
    rw [step]
    split_ifs with hclosed
    · exact h
    · have hcalled := called_httpSendData net c d.hs d.world
      refine ⟨h.same.trans hcalled.same, h.onWay.httpSendData, fun e he => ?_, hcalled.left_of_closed⟩
      rcases List.mem_append.mp he with he | he
      · exact h.answered e he
      · exact hcalled.answered e he

/-- A file that has been found, before the first call. -/
def start (hs : HttpState) (file : FsFile) (is09 : Bool) (w : σ) : Delivery σ :=
  { hs := httpInitFile hs (some file) is09, world := w }

variable (net c) in
theorem fine_run (hs : HttpState) (file : FsFile) (is09 : Bool) (w : σ)
    (hleft : (httpInitFile hs (some file) is09).left ≠ 0) {beats : List (Beat σ)}
    (hbeats : ∀ b ∈ beats, Quiet net c b) :
    Fine net c (net.sent c w) (httpInitFile hs (some file) is09).file (httpInitFile hs (some file) is09)
      (beats.foldl (step net c) (start hs file is09 w)) := by
  refine Run.foldl_inv_of_mem (Fine net c _ _ _) (fun b hb d hd => fine_step hd (hbeats b hb)) ?_
  exact ⟨SameFile.refl _, onWay_httpInitFile net c hs file is09 w hleft, by simp [start],
    by simp [start]⟩

variable (net c) in
/-- At any time TCP has taken a beginning of the page with its inserts, and all of it when the
    connection is closed; the inserts are the answers for the tags, in the order of the page. The
    insert for a tag that ends the page is asked for and not sent. -/
theorem delivered (hs : HttpState) (file : FsFile) (is09 : Bool) (w : σ)
    (hleft : (httpInitFile hs (some file) is09).left ≠ 0) {beats : List (Beat σ)}
    (hbeats : ∀ b ∈ beats, Quiet net c b) :
    let d := beats.foldl (step net c) (start hs file is09 w)
    let page := content hs.tagCheck (httpInitFile hs (some file) is09).file file.data
    (∀ ins, net.sent c d.world <+: net.sent c w ++ page (d.told.map Prod.snd ++ ins)) ∧
      (d.closed = true → net.sent c d.world = net.sent c w ++ page (shown file.data d.told) ∧
        (hs.tagCheck = true → d.told.map Prod.fst = Weave.calls tagStep .none file.data)) ∧
      (∀ e ∈ d.told, Answered net e) ∧
      (hs.tagCheck = true → d.told.map Prod.fst <+: Weave.calls tagStep .none file.data) := by
  obtain ⟨hpage, -, -, -, -, htag⟩ := httpInitFile_some hs file is09
  have hfine := fine_run net c hs file is09 w hleft hbeats
  simp only
  generalize beats.foldl (step net c) (start hs file is09 w) = d at hfine ⊢
  rw [← hpage, ← htag, ← hfine.same.page, ← hfine.same.tagCheck, content_shown]
  refine ⟨hfine.onWay.begins, fun hclosed => ?_, hfine.answered, hfine.onWay.names⟩
  have hzero := hfine.left_of_closed hclosed
  exact ⟨hfine.onWay.complete hzero, fun htag => hfine.onWay.all_names htag hzero⟩

/-- A page with a tag. -/
def samplePieces : List Piece :=
  [.text (lit "<p>"), .tag (lit "c") (lit "<!--#c-->"), .text (lit "</p>")]

def samplePage : FsFile where
  place := ⟨0, by decide⟩
  data := samplePieces.flatMap Piece.bytes
  index := (samplePieces.flatMap Piece.bytes).length
  httpHeaderIncluded := true
  atEnd := le_rfl

theorem samplePieces_ok : ∀ p ∈ samplePieces, p.Ok := by
  simp only [samplePieces, List.forall_mem_cons, Piece.Ok]
  refine ⟨by decide +kernel, ⟨[], 99, [], by simp [Blanks], by simp [Blanks], ⟨by decide, by decide⟩,
    by decide, by decide⟩,
    by decide +kernel, by simp⟩

def sampleRun : Delivery (CStr × Site) :=
  [Beat.call, .world id].foldl (step openNet ())
    (start { tagCheck := true } samplePage false firstWorld)

theorem delivered_sampleRun :
    openNet.sent () sampleRun.world <+: content true 0 samplePage.data
    (sampleRun.told.map Prod.snd ++ []) :=
  (delivered openNet () { tagCheck := true } samplePage false firstWorld (by decide)
    (by simp [Quiet])).1 []

variable (net c) in
/-- A page that was put together from texts and tags is sent with the answers behind its tags; of a
    tag that ends the page it is not sent. -/
theorem delivered_pieces (hs : HttpState) (file : FsFile) (w : σ) (htag : hs.tagCheck = true)
    {ps : List Piece}
    (hps : ∀ p ∈ ps, p.Ok) (hfile : file.data = ps.flatMap Piece.bytes) (hne : ps ≠ [])
    {beats : List (Beat σ)}
    (hbeats : ∀ b ∈ beats, Quiet net c b) :
    let d := beats.foldl (step net c) (start hs file false w)
    (∀ ins, net.sent c d.world <+: net.sent c w ++ Piece.fill ps (d.told.map Prod.snd ++ ins)) ∧
      (d.closed = true → net.sent c d.world = net.sent c w ++ Piece.fill ps (d.told.map Prod.snd) ∧
        d.told.map Prod.fst = Piece.names ps ∧
        ∀ front name t, ps = front ++ [.tag name t] → net.sent c d.world =
          net.sent c w ++ Piece.fill ps ((d.told.map Prod.snd).take (Piece.names front).length)) ∧
      ∀ e ∈ d.told, Answered net e := by
  have hlength : file.data ≠ [] := by
    rw [hfile]
    exact Piece.flatMap_ne_nil hps hne
  have hleft : (httpInitFile hs (some file) false).left ≠ 0 := by simpa [httpInitFile] using hlength
  have hstart : (httpInitFile hs (some file) false).file = 0 := by simp [httpInitFile]
  have hpage (ins : List CStr) : content hs.tagCheck 0 file.data ins = Piece.fill ps ins := by
    rw [content, if_pos htag, hfile, Piece.shown_flatMap hps, if_neg (by simpa using hne),
      List.nil_append]
  have hpageShown (told : List (CStr × CStr)) :
      Piece.fill ps (shown file.data told) = Piece.fill ps (told.map Prod.snd) := by
    rw [← hpage, content_shown, hpage]
  obtain ⟨hbegins, hcomplete, hanswered, -⟩ := delivered net c hs file false w hleft hbeats
  simp only [hstart, hpage, hpageShown] at hbegins hcomplete ⊢
  generalize beats.foldl (step net c) (start hs file false w) = d at hbegins hcomplete hanswered ⊢
  refine ⟨hbegins, fun hclosed => ?_, hanswered⟩
  obtain ⟨hsent, hcalls⟩ := hcomplete hclosed
  have hnames : d.told.map Prod.fst = Piece.names ps := by
    rw [hcalls htag, hfile, Piece.tags_flatMap hps]
  refine ⟨hsent, hnames, fun front name t hend => ?_⟩
  have hlen := congrArg List.length hnames
  rw [hend, Piece.names_append, List.length_map, List.length_append] at hlen
  have hfront : ((d.told.map Prod.snd).take (Piece.names front).length).length =
    (Piece.names front).length := by
    rw [List.length_take, List.length_map]
    omega
  rw [hsent, hend, ← Piece.fill_tag_end front name t _
    ((d.told.map Prod.snd).drop (Piece.names front).length) hfront,
    List.take_append_drop]

theorem delivered_pieces_sampleRun :
    openNet.sent () sampleRun.world <+: Piece.fill samplePieces (sampleRun.told.map Prod.snd ++ []) :=
  (delivered_pieces openNet () { tagCheck := true } samplePage firstWorld rfl
    samplePieces_ok rfl (by simp [samplePieces]) (by simp [Quiet])).1 []

end Delivery

/-! ### Progress -/

/-- TCP has room and takes what there is room for. -/
structure Ready (net : Net C σ) (c : C) (w : σ) : Prop where
  sndbuf : 0 < (net.sndbuf c w).toNat
  mss : 0 < (net.mss c w).toNat
  taken : ∀ bs : CStr, bs.length ≤ (net.sndbuf c w).toNat → (net.tcpWrite c bs w).1 = .ok

/-- The handlers of the tags leave TCP alone. -/
def Aside (net : Net C σ) (c : C) : Prop :=
  ∀ tag w, net.sndbuf c (net.ssiHandler tag w).2 = net.sndbuf c w ∧
    net.mss c (net.ssiHandler tag w).2 = net.mss c w ∧
    ∀ bs, (net.tcpWrite c bs (net.ssiHandler tag w).2).1 = (net.tcpWrite c bs w).1

theorem Ready.getTagInsert {w : σ} (h : Ready net c w) (haside : Aside net c) (name : CStr) :
    Ready net c (getTagInsert net name w).2 ∧ net.sndbuf c
    (Web.getTagInsert net name w).2 = net.sndbuf c w := by
  rw [Web.getTagInsert]
  split
  · rename_i t _
    obtain ⟨hsndbuf, hmss, htcp⟩ := haside t.2 w
    exact ⟨⟨by rw [hsndbuf]; exact h.sndbuf, by rw [hmss]; exact h.mss, fun bs hbs => by
      rw [htcp]
      exact h.taken bs (by rw [← hsndbuf]; exact hbs)⟩, hsndbuf⟩
  · exact ⟨h, rfl⟩

theorem room_pos {w : σ} (h : Ready net c w) {avail : ℕ} (havail : 0 < avail) :
    0 < room net c w avail ∧ room net c w avail ≤ (net.sndbuf c w).toNat := by
  have := h.sndbuf
  have := h.mss
  simp only [room]
  split_ifs <;> omega

/-- More has been sent than at the beginning. -/
def Grown (net : Net C σ) (c : C) (w w' : σ) : Prop := (net.sent c w).length < (net.sent c w').length

theorem Grown.of_prefix {w w' w'' : σ} (h : Grown net c w w')
    (hsent : net.sent c w' <+: net.sent c w'') :
    Grown net c w w'' := lt_of_lt_of_le h hsent.length_le

/-- What there is of the file, in a piece there is room for, is sent. -/
theorem grown_writeFile {t : Sending σ} (h : Ready net c t.world) (hpos : 0 < t.len)
    (hlen : t.len ≤ (net.sndbuf c t.world).toNat) (hfile : t.hs.file < t.hs.page.length) :
    Grown net c t.world (writeFile net c t).world := by
  have hok : (net.tcpWrite c ((t.hs.page.drop t.hs.file).take t.len) t.world).1 = .ok :=
    h.taken _ ((List.length_take_le ..).trans hlen)
  have hsent := net.sent_of_ok _ _ _ hok
  have hworld : (writeFile net c t).world =
    (net.tcpWrite c ((t.hs.page.drop t.hs.file).take t.len) t.world).2 := by
    rw [writeFile, httpWrite_of_taken hok]
  rw [Grown, hworld, hsent, List.length_append, List.length_take, List.length_drop]
  omega

theorem grown_writeInsert {t : Sending σ} (h : Ready net c t.world) (hpos : 0 < t.len)
    (hlen : t.len ≤ (net.sndbuf c t.world).toNat) (hindex : t.hs.tagIndex < t.hs.tagInsert.length) :
    Grown net c t.world (writeInsert net c t).world := by
  have hok : (net.tcpWrite c ((t.hs.tagInsert.drop t.hs.tagIndex).take t.len) t.world).1 = .ok :=
    h.taken _ ((List.length_take_le ..).trans hlen)
  have hsent := net.sent_of_ok _ _ _ hok
  have hworld : (writeInsert net c t).world =
      (net.tcpWrite c ((t.hs.tagInsert.drop t.hs.tagIndex).take t.len) t.world).2 := by
    rw [writeInsert, httpWrite_of_taken hok]
  rw [Grown, hworld, hsent, List.length_append, List.length_take, List.length_drop]
  omega

/-- Nothing has been written in this call yet. -/
structure Untouched (net : Net C σ) (c : C) (hs : HttpState) (w : σ) (t : Sending σ) : Prop where
  ready : Ready net c t.world
  len : t.len = (net.sndbuf c t.world).toNat
  err : t.err = .ok
  sent : net.sent c t.world = net.sent c w
  file : t.hs.file = hs.file
  front : t.hs.tagState = .sending → t.hs.tagEnd ≤ t.hs.file

variable {hs : HttpState} {w : σ} {t : Sending σ}

theorem Untouched.of_hs (h : Untouched net c hs w t) {hs' : HttpState} (hfile : hs'.file = t.hs.file)
    (hstate : hs'.tagState ≠ .sending) : Untouched net c hs w { t with hs := hs' } :=
  ⟨h.ready, h.len, h.err, h.sent, hfile.trans h.file, fun hst => absurd hst hstate⟩

/-- A turn of the loop writes something or leaves everything to the next one. -/
theorem Untouched.parseTag (h : Untouched net c hs w t) (haside : Aside net c)
    (hread : t.hs.parsed + t.hs.parseLeft = t.hs.page.length) (hleft : t.hs.parseLeft ≠ 0) :
    Untouched net c hs w (parseTag net c t) ∨ Grown net c w (Web.parseTag net c t).world := by
  have hpos : 0 < t.len := by rw [h.len]; exact h.ready.sndbuf
  have hgrown {w' : σ} (hg : Grown net c t.world w') : Grown net c w w' := by
    rw [Grown, ← h.sent]
    exact hg
  rw [Web.parseTag]
  cases hst : t.hs.tagState with
  | none | leadin | found =>
    simp only
    split_ifs <;> exact .inl (h.of_hs rfl (by simp [HttpState.advance, hst]))
  | leadout =>
    simp only
    split_ifs
    · exact .inl (h.of_hs rfl (by simp [HttpState.advance, hst]))
    · obtain ⟨hready, hsndbuf⟩ := h.ready.getTagInsert haside t.hs.tagName
      simp only [tagFound]
      split_ifs with hend
      · -- the data in front of the tag
        right
        have hlt : t.hs.file < t.hs.parsed + 1 := hend
        have hg := grown_writeFile
          (t := { callTag net { t with hs := t.hs.advance } with len := clip t.len (t.hs.parsed + 1 - t.hs.file) })
          hready
          (by simp only [clip_eq]; omega)
          (by
            simp only [clip_eq]
            have : (net.sndbuf c (callTag net { t with hs := t.hs.advance }).world).toNat = t.len := by
              rw [h.len, ← hsndbuf]; rfl
            omega)
          (by
            have : t.hs.file < t.hs.page.length := by omega
            exact this)
        have hsent : net.sent c (callTag net { t with hs := t.hs.advance }).world = net.sent c w :=
          (sent_getTagInsert ..).trans h.sent
        rw [Grown] at hg ⊢
        rw [← hsent]
        exact hg
      · exact .inl ⟨hready, h.len.trans (congrArg UInt16.toNat hsndbuf.symm), h.err,
          (sent_getTagInsert ..).trans h.sent,
          h.file, fun _ => not_lt.mp hend⟩
    · exact .inl (h.of_hs rfl (by simp [HttpState.advance]))
    · exact .inl (h.of_hs rfl (by simp [HttpState.advance]))
  | sending =>
    have hfront := h.front hst
    simp only
    split_ifs with hend hzero hlt
    · omega
    · omega
    · right
      refine hgrown (grown_writeInsert (t :=
        { t with len := clip t.len (t.hs.tagInsert.length - t.hs.tagIndex) }) h.ready
        ?_ ?_ hlt)
      · simp only [clip_eq]
        omega
      · simp only [clip_eq, ← h.len]
        exact min_le_left ..
    · exact .inl (h.of_hs rfl (by simp))

section Progress

variable {before : CStr} {start : ℕ} {told : List (CStr × CStr)}

/-- The loop writes something, or it reads the file to its end. -/
theorem Untouched.parseTags (h : Untouched net c hs w t) (haside : Aside net c)
    (hgoing : Going net c before start told t) :
    Grown net c w (parseTags net c t).1.world ∨
      Untouched net c hs w (Web.parseTags net c t).1 ∧ (Web.parseTags net c t).2 = false ∧
        (Web.parseTags net c t).1.hs.parseLeft = 0 := by
  fun_induction Web.parseTags net c t with
  | case1 t hcond hlen =>
    have := h.ready.sndbuf
    have := h.len
    omega
  | case2 t hcond hlen ih =>
    rcases h.parseTag haside hgoing.read hcond.1 with hnext | hgrown
    · exact ih hnext (hgoing.parseTag hcond.1)
    · exact .inl (hgrown.of_prefix (Kept.parseTags (Kept.refl _ _ _)).sent)
  | case3 t hcond =>
    refine .inr ⟨h, rfl, ?_⟩
    by_contra hne
    exact hcond ⟨hne, h.err⟩

/-- A call on a page with tags that has something left to send sends some of it. -/
theorem grown_sendTags (h : Serving net c before start told hs w) (hready : Ready net c w)
    (haside : Aside net c)
    (hleft : hs.left ≠ 0) : Grown net c w (sendTags net c hs w).world := by
  have hfile := h.left
  have hread := h.read
  have hgoing := going_sendRead h
  -- what was read before, then the loop, then the rest of what was read: none takes anything back
  have hrest (hg : Grown net c w (sendRead net c hs w).world) :
    Grown net c w (sendTags net c hs w).world := by
    have hloop := (Kept.refl net c (sendRead net c hs w)).parseTags.sent
    have hend := (Kept.refl net c (parseTags net c (sendRead net c hs w)).1).sendUnsent.sent
    rcases sendTags_cases net c hs w with heq | heq | heq
    · rw [heq]
      exact hg
    · rw [heq]
      exact hg.of_prefix hloop
    · rw [heq, (sendEnd_hs _).2.1]
      exact hg.of_prefix (hloop.trans hend)
  by_cases hlt : hs.parsed > hs.file
  · obtain ⟨hpos, hlen⟩ := room_pos hready (show 0 < hs.parsed - hs.file by omega)
    refine hrest ?_
    rw [sendRead, if_pos hlt]
    exact grown_writeFile (t := { hs := hs, world := w, len := _ }) hready hpos hlen
      (show hs.file < hs.page.length by omega)
  · have hstart : sendRead net c hs w = { hs := hs, world := w, len := (net.sndbuf c w).toNat } := by
      rw [sendRead, if_neg hlt]
    have huntouched : Untouched net c hs w (sendRead net c hs w) := by
      rw [hstart]
      refine ⟨hready, rfl, rfl, rfl, rfl, fun hst => ?_⟩
      have hindex := h.index
      simp only [HttpState.IndexOk] at hindex
      simp only at hst ⊢
      rw [hst] at hindex
      simp only at hindex
      omega
    have hloop := hgoing.parseTags
    have hend := (Kept.refl net c (parseTags net c (sendRead net c hs w)).1).sendUnsent.sent
    rw [sendTags, if_neg fun h => hlt h.1]
    rcases huntouched.parseTags haside hgoing with hgrown | ⟨hsame, hflag, hzero⟩
    · simp only
      split_ifs
      · exact hgrown
      · rw [(sendEnd_hs _).2.1]
        exact hgrown.of_prefix hend
    · simp only [hflag, Bool.false_eq_true, if_false]
      rw [(sendEnd_hs _).2.1]
      have hpage := (kept_sendRead net c hs w).parseTags.same.page
      clear hend
      revert hloop hsame hzero hpage
      generalize (parseTags net c (sendRead net c hs w)).1 = t
      intro hloop hsame hzero hpage
      -- everything has been read, and nothing of what is left to send has been written
      have hparsed := hloop.read
      have hunsent : t.hs.file < t.hs.parsed := by
        rw [hsame.file]
        rw [hpage] at hparsed
        omega
      have hstate : t.hs.tagState ≠ .sending := by
        intro hst
        have hindex := hloop.index
        have hfront := hsame.front hst
        simp only [HttpState.IndexOk, hst] at hindex
        omega
      obtain ⟨hpos, hlen⟩ := room_pos hsame.ready (show 0 < t.hs.parsed - t.hs.file by omega)
      rw [sendUnsent, if_pos ⟨hstate, hunsent⟩, Grown, ← hsame.sent]
      exact grown_writeFile (t := { t with len := room net c t.world (t.hs.parsed - t.hs.file) })
        hsame.ready hpos hlen
        (show t.hs.file < t.hs.page.length by omega)

/-- A call that has something left to send sends some of it. -/
theorem grown_httpSendData (h : OnWay net c before start told hs w) (hready : Ready net c w)
    (haside : Aside net c)
    (hleft : hs.left ≠ 0) : Grown net c w (httpSendData net c hs w).world := by
  rw [OnWay] at h
  rw [httpSendData, if_neg hleft]
  by_cases htag : hs.tagCheck = true
  · rw [if_pos htag] at h
    rw [if_neg (by simp [htag])]
    exact grown_sendTags h hready haside hleft
  · rw [if_neg htag] at h
    rw [if_pos (by simpa using htag), (sendEnd_hs _).2.1]
    obtain ⟨hpos, hlen⟩ := room_pos hready (show 0 < hs.left by omega)
    have hfile := h.1.left
    exact grown_writeFile (t := { hs := hs, world := w, len := room net c w hs.left }) hready hpos hlen
      (show hs.file < hs.page.length by omega)

/-- No page is longer than with a longest insert behind every byte. -/
theorem length_content_le (tagCheck : Bool) (start : ℕ) (page : CStr) {ins : List CStr} {k : ℕ}
    (hins : ∀ text ∈ ins, text.length ≤ k) :
    (content tagCheck start page ins).length ≤ page.length * (k + 1) := by
  rw [content]
  split_ifs
  · have hlen : (Weave.weave tagStep .none start [] page ins).length ≤ _ :=
      Weave.length_weave_le start [] ins hins
    simpa using hlen
  · rw [List.length_drop, Nat.mul_add]
    omega

theorem length_unknownTag (name : CStr) : (unknownTag name).length ≤ lwipHttpdMaxTagInsertLen := by
  simp [unknownTag, lit, lwipHttpdMaxTagInsertLen]
  omega

end Progress

namespace Delivery

/-- The calls of a run. -/
def calls : List (Beat σ) → ℕ
  | [] => 0
  | .call :: beats => calls beats + 1
  | .world _ :: beats => calls beats

/-- TCP has room at a call. -/
def CallReady (net : Net C σ) (c : C) (d : Delivery σ) : Beat σ → Prop
  | .call => Ready net c d.world
  | .world _ => True

theorem closed_run {d : Delivery σ} (h : d.closed = true) (beats : List (Beat σ)) :
    (beats.foldl (step net c) d).closed = true := by
  refine Run.foldl_inv (fun d : Delivery σ => d.closed = true) (fun d b hd => ?_) beats d h
  cases b with
  | call => rw [step, if_pos hd]; exact hd
  | world f => exact hd

/-- Every call that does not find the connection closed sends something, or closes it. -/
theorem grown_run (haside : Aside net c) {before : CStr} {start : ℕ} {hs : HttpState} :
    ∀ (beats : List (Beat σ)) (d : Delivery σ), Fine net c before start hs d →
    (∀ b ∈ beats, Quiet net c b) →
      (∀ p ∈ Run.steps (step net c) d beats, CallReady net c p.1 p.2) →
        (beats.foldl (step net c) d).closed = true ∨
          (net.sent c d.world).length + calls beats ≤
          (net.sent c (beats.foldl (step net c) d).world).length
  | [], d, _, _, _ => .inr le_rfl
  | b :: beats, d, hd, hquiet, hready => by
      rw [List.forall_mem_cons] at hquiet
      rw [Run.steps, List.forall_mem_cons] at hready
      have ih := grown_run haside beats (step net c d b) (fine_step hd hquiet.1) hquiet.2 hready.2
      rw [List.foldl_cons]
      cases b with
      | world f =>
        have hsame : net.sent c (step net c d (.world f)).world = net.sent c d.world := hquiet.1 d.world
        rw [hsame] at ih
        exact ih
      | call =>
        by_cases hclosed : d.closed = true
        · left
          refine closed_run ?_ beats
          rw [step, if_pos hclosed]
          exact hclosed
        · have hstep : (step net c d .call).closed = (httpSendData net c d.hs d.world).closed ∧
              (step net c d .call).world = (httpSendData net c d.hs d.world).world := by
            rw [step, if_neg hclosed]
            exact ⟨rfl, rfl⟩
          by_cases hleft : d.hs.left = 0
          · left
            refine closed_run ?_ beats
            rw [hstep.1, httpSendData, if_pos hleft]
          · have hgrown := grown_httpSendData hd.onWay hready.1 haside hleft
            rw [Grown, ← hstep.2] at hgrown
            refine ih.imp_right fun hlen => ?_
            rw [calls]
            omega

variable (net c) in
/-- If TCP has room at every call, the file is sent and the connection closed after a number of
    calls that the length of the file bounds. -/
theorem closed_of_calls (haside : Aside net c) {k : ℕ} (hk : lwipHttpdMaxTagInsertLen ≤ k)
    (htext : ∀ tag w, (net.ssiHandler tag w).1.length ≤ k) (hs : HttpState) (file : FsFile)
    (is09 : Bool) (w : σ)
    (hleft : (httpInitFile hs (some file) is09).left ≠ 0) {beats : List (Beat σ)}
    (hquiet : ∀ b ∈ beats, Quiet net c b)
    (hready : ∀ p ∈ Run.steps (step net c) (start hs file is09 w) beats, CallReady net c p.1 p.2)
    (hcalls : file.data.length * (k + 1) < calls beats) :
    (beats.foldl (step net c) (start hs file is09 w)).closed = true := by
  have hstart : Fine net c (net.sent c w) _ _ (start hs file is09 w) := 
    fine_run net c hs file is09 w hleft (List.forall_mem_nil _)
  have hdelivered := delivered net c hs file is09 w hleft hquiet
  have hlen := (hdelivered.1 []).length_le
  have hins : ∀ text ∈ (beats.foldl (step net c) (start hs file is09 w)).told.map Prod.snd ++ [],
    text.length ≤ k := by
    intro text htext'
    rw [List.append_nil, List.mem_map] at htext'
    obtain ⟨e, he, rfl⟩ := htext'
    obtain ⟨w', hw', -⟩ := hdelivered.2.2.1 e he
    rw [hw', length_overTagState, getTagInsert]
    split
    · exact htext ..
    · exact (length_unknownTag _).trans hk
  have hcontent := length_content_le hs.tagCheck (httpInitFile hs (some file) is09).file file.data hins
  rw [List.length_append] at hlen
  refine (grown_run haside beats _ hstart hquiet hready).resolve_right fun hgrown => ?_
  have : (net.sent c (start hs file is09 w).world).length = (net.sent c w).length := rfl
  omega

/-- A device that says the same for every tag. -/
def labelNet : Net Unit CStr where
  toTcp := openLine
  ssiHandler _ w := (lit "off", w)
  cgiHandler _ _ w := (lit "/control.shtml", w)
  sent_ssiHandler _ _ _ := rfl
  sent_cgiHandler _ _ _ _ := rfl

theorem closed_of_calls_openLine : ((List.replicate 3089 (.call : Beat CStr)).foldl (step labelNet ())
    (start { tagCheck := true } samplePage false [])).closed = true := by
  refine closed_of_calls labelNet () (fun _ _ => ⟨rfl, rfl, fun _ => rfl⟩) le_rfl
    (fun _ _ => (by decide : (lit "off").length ≤ lwipHttpdMaxTagInsertLen)) { tagCheck := true }
    samplePage false [] (by decide) ?_ ?_ ?_
  · intro b hb
    rw [List.eq_of_mem_replicate hb]
    trivial
  · rintro ⟨d, b⟩ -
    cases b with
    | world f => trivial
    | call => exact ⟨Nat.succ_pos 535, Nat.succ_pos 535, fun _ _ => rfl⟩
  · decide +kernel

end Delivery

end Web

end VectorFence
