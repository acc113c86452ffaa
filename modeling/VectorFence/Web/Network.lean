import VectorFence.Lwip
import VectorFence.Web.Address

/-! `Network_CGI_Handler` of `httpd_cgi_ssi.c`, the request `/network.cgi`:

        LAN=1&MAC=…&IP=…&SUBMASK=…&GATEWEY=…

    Each value goes through its scanner into `lwipdev` in turn, whatever the scanner returns. If
    there was one of the four names, `lwipdev` is stored and the system is reset. -/

namespace VectorFence

open CStr

/-- The arrays of `lwipdev` that a request can set. -/
inductive NetField where | mac | ip | netmask | gateway
  deriving DecidableEq, Repr

namespace NetField

/-- The name of the parameter. -/
def param : NetField → String
  | .mac => "MAC"
  | .ip => "IP"
  | .netmask => "SUBMASK"
  | .gateway => "GATEWEY"

def format : NetField → AddrFormat
  | .mac => .mac
  | _ => .ip

end NetField

namespace LwipDev

/-- An array of `lwipdev`. -/
def get (l : LwipDev) : (f : NetField) → Fin f.format.len → UInt8
  | .mac => l.mac
  | .ip => l.ip
  | .netmask => l.netmask
  | .gateway => l.gateway

theorem eq_iff {l l' : LwipDev} : l = l' ↔ ∀ f, l.get f = l'.get f := by
  constructor
  · rintro rfl f
    rfl
  · intro h
    exact LwipDev.ext (h .mac) (h .ip) (h .netmask) (h .gateway)

end LwipDev

namespace Web

/-- One turn of the loop over the parameters; of its four tests at most one holds. -/
def assignNet (l : LwipDev) (kv : CStr × CStr) : LwipDev :=
  let (name, value) := kv
  if name = lit "MAC" then { l with mac := (macStrToInt l.mac value).1 }
  else if name = lit "IP" then { l with ip := (ipStrToInt l.ip value).1 }
  else if name = lit "SUBMASK" then { l with netmask := (ipStrToInt l.netmask value).1 }
  else if name = lit "GATEWEY" then { l with gateway := (ipStrToInt l.gateway value).1 }
  else l

/-- `modify_flag`. -/
def modifyFlag (params : CgiParams) : Bool := params.any fun kv =>
  kv.1 = lit "MAC" ∨ kv.1 = lit "IP" ∨ kv.1 = lit "SUBMASK" ∨ kv.1 = lit "GATEWEY"

def networkCGIHandler (params : CgiParams) (h : Host) : Host :=
  if findCGIParameter "LAN" params ∧ modifyFlag params then
    (h.setLwipdev (params.foldl assignNet h.lwipdev)).lwipResetNetifIpaddr
  else h

/-! ### What the loop leaves -/

open AddrFormat

/-- The assignments that a parameter makes to an array. -/
def assignments (f : NetField) (kv : CStr × CStr) : List (ℕ × UInt8) :=
  if kv.1 = lit f.param then (f.format.scan 0 0 kv.2).1 else []

theorem assignNet_get (l : LwipDev) (kv : CStr × CStr) (f : NetField) :
    (assignNet l kv).get f = (assignments f kv).foldl putByte (l.get f) := by
  obtain ⟨name, value⟩ := kv
  by_cases hname : ∃ f' : NetField, name = lit f'.param
  · obtain ⟨f', rfl⟩ := hname
    cases f <;> cases f' <;> rfl
  · push Not at hname
    have hnone : assignNet l (name, value) = l := by
      simp only [assignNet]
      split_ifs with hmac hip hmask hgw
      · exact absurd hmac (hname .mac)
      · exact absurd hip (hname .ip)
      · exact absurd hmask (hname .netmask)
      · exact absurd hgw (hname .gateway)
      · rfl
    rw [hnone, assignments, if_neg (hname f), List.foldl_nil]

theorem foldl_assignNet_get (params : CgiParams) (l : LwipDev) (f : NetField) :
    (params.foldl assignNet l).get f = (params.flatMap (assignments f)).foldl putByte (l.get f) := by
  induction params generalizing l with
  | nil => rfl
  | cons kv params ih => rw [List.foldl_cons, ih, assignNet_get, List.flatMap_cons, List.foldl_append]

/-- The last of some assignments to a place. -/
def lastByte (ws : List (ℕ × UInt8)) (j : ℕ) : Option UInt8 :=
  (ws.reverse.find? fun w => w.1 = j).map Prod.snd

theorem foldl_putByte {n : ℕ} (ws : List (ℕ × UInt8)) (a : Fin n → UInt8) (j : Fin n) :
    ws.foldl putByte a j = (lastByte ws j).getD (a j) := by
  induction ws using List.reverseRecOn with
  | nil => rfl
  | append_singleton ws w ih =>
    rw [List.foldl_append, List.foldl_cons, List.foldl_nil, putByte, lastByte, List.reverse_concat,
      List.find?_cons]
    by_cases hj : (j : ℕ) = w.1
    · simp [hj]
    · have hw : ¬w.1 = j := fun h => hj h.symm
      simp only [if_neg hj, hw, decide_false]
      exact ih

/-! ### All or nothing -/

/-- The value of an address is not one. -/
def Malformed (kv : CStr × CStr) : Prop := ∃ f : NetField, kv.1 = lit f.param ∧ ¬f.format.Grammar kv.2

/-- A request with a malformed value changes neither `lwipdev` nor its copy. -/
def AllOrNothing (params : CgiParams) (h : Host) : Prop :=
  (∃ kv ∈ params, Malformed kv) →
    (networkCGIHandler params h).lwipdev = h.lwipdev ∧
    (networkCGIHandler params h).storedNet = h.storedNet

/-- What the values of a request spell, as far as they can be read, is what is there. -/
def InPlace (params : CgiParams) (h : Host) : Prop :=
  h.storedNet = h.lwipdev ∧
    ∀ (f : NetField) (j : Fin f.format.len), ∀ b ∈ lastByte (params.flatMap (assignments f)) j,
      b = h.lwipdev.get f j

theorem modifyFlag_of_malformed {params : CgiParams} (h : ∃ kv ∈ params, Malformed kv) :
    modifyFlag params = true := by
  obtain ⟨kv, hkv, f, hname, -⟩ := h
  rw [modifyFlag, List.any_eq_true]
  refine ⟨kv, hkv, ?_⟩
  rw [decide_eq_true_eq, hname]
  cases f <;> decide

theorem foldl_assignNet_eq_iff (params : CgiParams) (l : LwipDev) : params.foldl assignNet l = l ↔
    ∀ (f : NetField) (j : Fin f.format.len), ∀ b ∈ lastByte (params.flatMap (assignments f)) j,
      b = l.get f j := by
  rw [LwipDev.eq_iff]
  refine forall_congr' fun f => ?_
  rw [foldl_assignNet_get, funext_iff]
  refine forall_congr' fun j => ?_
  rw [foldl_putByte]
  cases lastByte (params.flatMap (assignments f)) j <;> simp

/-- The handler is all or nothing only where it changes nothing anyway. -/
theorem networkCGIHandler_allOrNothing_iff (params : CgiParams) (h : Host) : AllOrNothing params h ↔
    (∀ kv ∈ params, ¬Malformed kv) ∨ findCGIParameter "LAN" params = false ∨ InPlace params h := by
  by_cases hbad : ∃ kv ∈ params, Malformed kv
  · have hnot : ¬∀ kv ∈ params, ¬Malformed kv := fun hall => hbad.elim fun kv hkv => hall kv hkv.1 hkv.2
    rw [AllOrNothing, imp_iff_right hbad, or_iff_right hnot, networkCGIHandler]
    cases hlan : findCGIParameter "LAN" params with
    | false => simp
    | true =>
      rw [if_pos ⟨rfl, modifyFlag_of_malformed hbad⟩, Host.storedNet_reset, Host.lwipdev_reset,
        Host.lwipdev_setLwipdev, or_iff_right (by simp), InPlace, ← foldl_assignNet_eq_iff]
      constructor
      · rintro ⟨hsame, hstored⟩
        exact ⟨(hstored.symm.trans hsame), hsame⟩
      · rintro ⟨hstored, hsame⟩
        exact ⟨hsame, hsame.trans hstored.symm⟩
  · refine iff_of_true (fun h => absurd h hbad) (Or.inl fun kv hkv hm => hbad ⟨kv, hkv, hm⟩)

/-- A good address is put in place beside a bad one. -/
theorem not_networkCGIHandler_allOrNothing : ¬ ∀ params h, AllOrNothing params h := by
  intro h
  have hall := (h [(lit "LAN", lit "1"), (lit "IP", lit "10.0.0.1"),
    (lit "MAC", lit "zz")] Host.firstStart)
    ⟨(lit "MAC", lit "zz"), by simp, .mac, rfl, fun hg => absurd hg.1 (by decide)⟩
  have hip := congrArg (fun l => l.ip 0) hall.1
  exact absurd hip (by decide)

end Web

end VectorFence
