import LuaPosix.Posix.Sockets
import LuaPosix.Posix.Messages
import LuaPosix.Posix.Time
import LuaPosix.Posix.Termio
import LuaPosix.Posix.Resource

/-! # Tables with unknown fields

The bindings that take a table check the types of its fields and the names of all its keys. What
they accept is told here by the list of names and by the types that fields must have, and may
have; everything else is an argument error, raised before anything is called. -/

namespace LuaPosix

open LuaPattern (LStr)
open Traversal (Layout)

/-! ## Bindings that check before they call -/

namespace BindingM

variable {σ κ α β : Type}

/-- A run that raises an argument error and leaves everything as it was: nothing is called. -/
def RaisesArg (x : BindingM σ κ α) (w : World σ κ) : Prop :=
  ∃ narg msg, x.run w = .error (.raises (.argerror narg msg)) w

/-- A check of arguments raises no other errors than argument errors. -/
def OnlyArg (x : LuaM α) : Prop := ∀ e, x = .error e → ∃ narg msg, e = .argerror narg msg

variable {w : World σ κ}

/-- What follows a check of arguments. -/
theorem RaisesArg.lua {x : LuaM α} {f : α → BindingM σ κ β} (hx : OnlyArg x)
    (hf : ∀ a, x = .ok a → RaisesArg (f a) w) :
    RaisesArg ((liftM x : BindingM σ κ α) >>= f) w := by
  cases x with
  | error e =>
      obtain ⟨narg, msg, rfl⟩ := hx e rfl
      exact ⟨narg, msg, rfl⟩
  | ok a => exact hf a rfl

/-- A check of fields that fails. -/
theorem RaisesArg.read {g : Heap → CallM α} {f : α → BindingM σ κ β}
    (hg : (g w.heap).RaisesArg) : RaisesArg ((BindingM.read g : BindingM σ κ α) >>= f) w := by
  obtain ⟨narg, msg, herr⟩ := hg
  refine ⟨narg, msg, ?_⟩
  rw [EStateM.run_bind, run_read, herr]
  rfl

variable {strtod : LStr → Option Rat} {args : List LuaValue} {narg : Nat}

/-- An integer is refused by argument errors only. -/
theorem onlyArg_expectinteger (expected : String) :
    OnlyArg (expectinteger strtod args narg expected) := by
  intro e h
  rw [expectinteger] at h
  cases hd : args[narg - 1]?.bind (LuaValue.tointegerx strtod) with
  | some d =>
      rw [hd] at h
      cases h
  | none =>
      rw [hd] at h
      cases h
      exact ⟨_, _, rfl⟩

/-- So is an `int`. -/
theorem onlyArg_checkint : OnlyArg (checkint strtod args narg) := by
  intro e h
  rw [checkint] at h
  cases hd : expectinteger strtod args narg "integer" with
  | ok d =>
      rw [hd] at h
      cases h
  | error e' =>
      rw [hd] at h
      cases h
      exact onlyArg_expectinteger _ _ hd

/-- So are too many arguments. -/
theorem onlyArg_checknargs (maxargs : Nat) : OnlyArg (checknargs args maxargs) := by
  intro e h
  by_cases hle : args.length ≤ maxargs
  · rw [checknargs, if_pos hle] at h
    cases h
  · rw [checknargs, if_neg hle] at h
    cases h
    exact ⟨_, _, rfl⟩

/-- So is what is no table. -/
theorem onlyArg_checktable : OnlyArg (checktable args narg) := by
  intro e h
  rw [checktable] at h
  cases hv : argument args narg with
  | none =>
      rw [hv] at h
      cases h
      exact ⟨_, _, rfl⟩
  | some v =>
      rw [hv] at h
      cases v <;> cases h <;> exact ⟨_, _, rfl⟩

/-- So is what is no string. -/
theorem onlyArg_checklstring {numberText : LuaValue → LStr} :
    OnlyArg (checklstring args numberText narg) := by
  intro e h
  rw [checklstring] at h
  cases hv : args[narg - 1]? with
  | none =>
      rw [hv] at h
      cases h
      exact ⟨_, _, rfl⟩
  | some v =>
      rw [hv] at h
      cases v <;> cases h <;> exact ⟨_, _, rfl⟩

/-- So is what is neither a string nor missing. -/
theorem onlyArg_optstring {N : Numerals} : OnlyArg (optstring N args narg) := by
  intro e h
  rw [optstring] at h
  by_cases hnil : isnoneornil args narg = true
  · rw [if_pos hnil] at h
    cases h
  · rw [if_neg hnil] at h
    cases hs : (argument args narg).bind N.tolstring with
    | none =>
        rw [hs] at h
        cases h
        exact ⟨_, _, rfl⟩
    | some s =>
        rw [hs] at h
        cases h

end BindingM

/-! ## Kinds of tables -/

/-- A kind of table: the fields it must have and those it may have, with their types, and the
names of all fields. -/
structure Fields where
  required : List (String × String)
  optional : List (String × String)
  names : List String

namespace Fields

variable (F : Fields) (H : Heap) (t : Nat)

/-- The fields have their types. -/
def Typed : Prop :=
  (∀ r ∈ F.required, H.HasType t r.1 r.2) ∧ ∀ o ∈ F.optional, H.MayHaveType t o.1 o.2

/-- A table of this kind, without other keys. -/
def Proper : Prop := F.Typed H t ∧ ∀ key ∈ H.tables t, Heap.Known F.names key

/-- A table that is accepted: names are compared up to their first zero. -/
def Accepts : Prop := F.Typed H t ∧ ∀ key ∈ H.tables t, Heap.Listed F.names key

/-- A table has a key that is not a name, whatever follows a zero in it. -/
def Unknown : Prop := ∃ key ∈ H.tables t, ¬Heap.Listed F.names key

/-- The types of fields can be decided. -/
instance : Decidable (F.Typed H t) := inferInstanceAs (Decidable (_ ∧ _))

/-- So can whether a table is as it should be. -/
instance : Decidable (F.Proper H t) := inferInstanceAs (Decidable (_ ∧ _))

variable {F H t}

/-- A table as it should be is accepted. -/
theorem Proper.accepts (hF : Heap.Names F.names) (h : F.Proper H t) : F.Accepts H t :=
  ⟨h.1, fun key hkey => (h.2 key hkey).listed hF⟩

/-- A table with an unknown key is not. -/
theorem Unknown.not_accepts (h : F.Unknown H t) : ¬F.Accepts H t := by
  obtain ⟨key, hkey, hlisted⟩ := h
  exact fun haccepts => hlisted (haccepts.2 key hkey)

end Fields

namespace FieldNames

open Heap CallM

/-- The tables of `sockaddr_from_lua`, by their family. -/
def sockaddr : Sockets.Family → Fields
  | .AF_UNIX => ⟨[("family", "number"), ("path", "string")], [], Sockets.Safunix_fields⟩
  | .AF_INET => ⟨[("family", "number"), ("port", "number"), ("addr", "string")], [],
      Sockets.Safinet4_fields⟩
  | .AF_INET6 => ⟨[("family", "number"), ("port", "number"), ("addr", "string")],
      [("flowinfo", "number"), ("scope_id", "number")], Sockets.Safinet6_fields⟩
  | .AF_NETLINK => ⟨[("family", "number"), ("pid", "number"), ("groups", "number")], [],
      Sockets.Safnetlink_fields⟩
  | .AF_PACKET => ⟨[("family", "number"), ("ifindex", "number")], [], Sockets.Safpacket_fields⟩

/-- The hints of `getaddrinfo`. -/
def hints : Fields where
  required := []
  optional := [("family", "number"), ("socktype", "number"), ("protocol", "number"),
    ("flags", "number")]
  names := Sockets.Sai_fields

/-- The tables of `totimespec`. -/
def timespec : Fields where
  required := []
  optional := [("tv_sec", "number"), ("tv_nsec", "number")]
  names := Time.Stimespec_fields

/-- The tables of `totm`. -/
def tm : Fields where
  required := []
  optional := [("tm_sec", "number"), ("tm_min", "number"), ("tm_hour", "number"),
    ("tm_mday", "number"), ("tm_mon", "number"), ("tm_year", "number"), ("tm_wday", "number"),
    ("tm_yday", "number"), ("tm_isdst", "number"), ("tm_gmtoff", "number"), ("tm_zone", "string")]
  names := Time.Stm_fields

/-- The tables of `towinsize`. -/
def winsize : Fields where
  required := []
  optional := [("ws_row", "number"), ("ws_col", "number"), ("ws_xpixel", "number"),
    ("ws_ypixel", "number")]
  names := Termio.Swinsize_fields

/-- What `towinsize` checks of them: not the types of fields that the build does without. -/
def winsizeChecked (pixels : Bool) : Fields where
  required := []
  optional := [("ws_row", "number"), ("ws_col", "number")] ++
    if pixels then [("ws_xpixel", "number"), ("ws_ypixel", "number")] else []
  names := Termio.Swinsize_fields

/-- The tables of `setrlimit`. -/
def rlimit : Fields where
  required := [("rlim_cur", "number"), ("rlim_max", "number")]
  optional := []
  names := Resource.Srlimit_fields

/-- The tables of `tomsqid`. -/
def msqid : Fields where
  required := [("msg_qbytes", "number"), ("msg_perm", "table")]
  optional := []
  names := Messages.Smsqid_fields

/-- The tables in their field `msg_perm`. -/
def ipcperm : Fields where
  required := [("uid", "number"), ("gid", "number"), ("mode", "number")]
  optional := []
  names := Messages.Sipcperm_fields

/-- No name of a field of an address has a zero in it. -/
theorem names_sockaddr (f : Sockets.Family) : Names (sockaddr f).names := by
  cases f <;> decide

/-- None of the hints has. -/
theorem names_hints : Names hints.names := by decide

/-- None of a queue's has. -/
theorem names_msqid : Names msqid.names := by decide

/-- None of a queue's permissions has. -/
theorem names_ipcperm : Names ipcperm.names := by decide

/-! ## What the converters check -/

section Converters

variable {N : Numerals} {H : Heap} {index t : Nat}

/-- `totimespec` checks its fields and all names. -/
theorem checks_timespecFields :
    (Time.timespecFields N index H t).Checks (timespec.Accepts H t) := by
  refine (checks_optintegerfield.bind fun _ => checks_optintegerfield.bind fun _ =>
    (checks_checkfieldnames Time.names_Stimespec_fields).bind fun _ => checks_ok _).congr ?_
  simp [Fields.Accepts, Fields.Typed, timespec, and_assoc]

/-- The fields in pixels are checked where they are read. -/
theorem checks_pixelFields {pixels : Bool} : (Termio.pixelFields pixels index H t).Checks
    (pixels = true → H.MayHaveType t "ws_xpixel" "number" ∧
      H.MayHaveType t "ws_ypixel" "number") := by
  cases pixels with
  | true =>
      refine (checks_optintfield.bind fun _ => checks_optintfield.bind fun _ =>
        checks_ok _).congr ?_
      rw [and_true, forall_prop_of_true rfl]
  | false => exact (checks_ok _).congr ⟨fun _ h => Bool.noConfusion h, fun _ => trivial⟩

/-- `towinsize` checks what it reads and all names. -/
theorem checks_winsizeFields {pixels : Bool} : (Termio.winsizeFields pixels N index H t).Checks
    ((winsizeChecked pixels).Accepts H t) := by
  refine (checks_optintfield.bind fun _ => checks_optintfield.bind fun _ =>
    checks_pixelFields.bind fun _ =>
    (checks_checkfieldnames Termio.names_Swinsize_fields).bind fun _ => checks_ok _).congr ?_
  cases pixels <;> simp [Fields.Accepts, Fields.Typed, winsizeChecked, and_assoc]

/-- A table as it should be is accepted by every build. -/
theorem winsizeChecked_accepts {pixels : Bool} (h : winsize.Proper H t) :
    (winsizeChecked pixels).Accepts H t := by
  obtain ⟨⟨hrequired, hoptional⟩, hknown⟩ := h
  refine ⟨⟨hrequired, fun o ho => hoptional o ?_⟩,
    fun key hkey => (hknown key hkey).listed Termio.names_Swinsize_fields⟩
  cases pixels with
  | true => exact ho
  | false =>
      have hread : o ∈ [("ws_row", "number"), ("ws_col", "number")] := ho
      exact List.mem_append_left [("ws_xpixel", "number"), ("ws_ypixel", "number")] hread

/-- `setrlimit` checks its fields and all names. -/
theorem checks_rlimitFields : (Resource.rlimitFields N H t).Checks (rlimit.Accepts H t) := by
  refine (checks_checkintegerfield.bind fun _ => checks_checkintegerfield.bind fun _ =>
    (checks_checkfieldnames Resource.names_Srlimit_fields).bind fun _ => checks_ok _).congr ?_
  simp [Fields.Accepts, Fields.Typed, rlimit, and_assoc]

/-- `totm` checks its fields and all names. -/
theorem checks_tmFields : (Time.tmFields N index H t).Checks (tm.Accepts H t) := by
  refine (checks_optintfield.bind fun _ => checks_optintfield.bind fun _ =>
    checks_optintfield.bind fun _ => checks_optintfield.bind fun _ =>
    checks_optintfield.bind fun _ => checks_optintfield.bind fun _ =>
    checks_optintfield.bind fun _ => checks_optintfield.bind fun _ =>
    checks_optintfield.bind fun _ => checks_optintfield.bind fun _ =>
    checks_optstringfield.bind fun _ =>
    (checks_checkfieldnames Time.names_Stm_fields).bind fun _ => checks_ok _).congr ?_
  simp [Fields.Accepts, Fields.Typed, tm, and_assoc]

/-- `getaddrinfo` checks the names of its hints and their types. -/
theorem checks_hintsArgument {σ : Type} (S : Sockets.System σ) {args : List LuaValue}
    (harg : argument args 3 = some (.table t)) :
    (Sockets.hintsArgument S args H).Checks (hints.Accepts H t) := by
  rw [Sockets.hintsArgument, harg]
  -- Here the names are checked before the types.
  refine ((checks_checkfieldnames names_hints).bind fun _ => checks_optintfield.bind fun _ =>
    checks_optintfield.bind fun _ => checks_optintfield.bind fun _ =>
    checks_optintfield.bind fun _ => checks_ok _).congr ?_
  simp only [Fields.Accepts, Fields.Typed, hints, List.forall_mem_cons, List.not_mem_nil,
    false_implies, implies_true, and_true, true_and]
  exact and_comm

/-- The family that a table of an address has. -/
def HasFamily (H : Heap) (t : Nat) (f : Sockets.Family) : Prop :=
  H.HasType t "family" "number" ∧ toInt (tointeger (H.get t (fieldName "family"))) = f.value

/-- The family is read as an `int`. -/
theorem checkintfield_family (index : Nat) (hty : H.HasType t "family" "number") :
    H.checkintfield index t "family"
      = .ok (toInt (tointeger (H.get t (fieldName "family")))) := by
  rw [HasType] at hty
  rw [checkintfield, checkintegerfield, checkfieldtype]
  simp only [if_pos hty]
  rfl

/-- A table has one family at most. -/
theorem HasFamily.unique {f f' : Sockets.Family} (h : HasFamily H t f) (h' : HasFamily H t f') :
    f = f' := by
  have hsome := congrArg Sockets.Family.ofInt (h.2.symm.trans h'.2)
  rw [Sockets.Family.ofInt_value, Sockets.Family.ofInt_value] at hsome
  exact Option.some.inj hsome

/-- The rest of an address is checked as its family asks. -/
theorem checks_sockaddrFields (P : Sockets.Presentation) (f : Sockets.Family)
    (hfamily : H.HasType t "family" "number") :
    (Sockets.sockaddrFields N P H index t f.value).Checks ((sockaddr f).Accepts H t) := by
  rw [Sockets.sockaddrFields, Sockets.Family.ofInt_value]
  -- The type of `family` has been checked already, so it is no condition any more.
  cases f with
  | AF_INET =>
      refine (checks_checkintfield.bind fun _ => checks_checkstringfield.bind fun _ =>
        (checks_checkfieldnames (names_sockaddr .AF_INET)).bind fun _ => checks_ok _).congr ?_
      simp [Fields.Accepts, Fields.Typed, sockaddr, hfamily, and_assoc]
  | AF_INET6 =>
      refine (checks_checkintfield.bind fun _ => checks_checkstringfield.bind fun _ =>
        checks_optintegerfield.bind fun _ => checks_optintegerfield.bind fun _ =>
        (checks_checkfieldnames (names_sockaddr .AF_INET6)).bind fun _ => checks_ok _).congr ?_
      simp [Fields.Accepts, Fields.Typed, sockaddr, hfamily, and_assoc]
  | AF_UNIX =>
      refine (checks_checklstringfield.bind fun _ =>
        (checks_checkfieldnames (names_sockaddr .AF_UNIX)).bind fun _ => checks_ok _).congr ?_
      simp [Fields.Accepts, Fields.Typed, sockaddr, hfamily]
  | AF_NETLINK =>
      refine (checks_checkintfield.bind fun _ => checks_checkintfield.bind fun _ =>
        (checks_checkfieldnames (names_sockaddr .AF_NETLINK)).bind fun _ => checks_ok _).congr ?_
      simp [Fields.Accepts, Fields.Typed, sockaddr, hfamily, and_assoc]
  | AF_PACKET =>
      refine (checks_checkintfield.bind fun _ =>
        (checks_checkfieldnames (names_sockaddr .AF_PACKET)).bind fun _ => checks_ok _).congr ?_
      simp [Fields.Accepts, Fields.Typed, sockaddr, hfamily]

/-- `sockaddr_from_lua` checks the table by its family. -/
theorem checks_sockaddr_from_lua (P : Sockets.Presentation) {args : List LuaValue}
    (harg : argument args index = some (.table t)) :
    (Sockets.sockaddr_from_lua N P H index args).Checks
      (∃ f, HasFamily H t f ∧ (sockaddr f).Accepts H t) := by
  rw [Sockets.sockaddr_from_lua, checktable, harg]
  show ((H.checkintfield index t "family") >>= fun family =>
    Sockets.sockaddrFields N P H index t family).Checks _
  -- The family is read first: without one, no names are looked at.
  by_cases hty : H.HasType t "family" "number"
  · rw [checkintfield_family index hty]
    show (Sockets.sockaddrFields N P H index t _).Checks _
    cases hf : Sockets.Family.ofInt (toInt (tointeger (H.get t (fieldName "family")))) with
    | none =>
        refine .inr ⟨?_, ?_⟩
        · rintro ⟨f, hfamily, -⟩
          rw [hfamily.2, Sockets.Family.ofInt_value] at hf
          cases hf
        · rw [Sockets.sockaddrFields, hf]
          exact raisesArg_argerror _ _
    | some f =>
        have hvalue := Sockets.Family.ofInt_eq_some_iff.mp hf
        rw [hvalue]
        refine (checks_sockaddrFields P f hty).congr ?_
        constructor
        · exact fun h => ⟨f, ⟨hty, hvalue⟩, h⟩
        · rintro ⟨f', hfamily, h⟩
          rwa [HasFamily.unique ⟨hty, hvalue⟩ hfamily]
  · have hraises : (H.checkintfield index t "family").RaisesArg :=
      checks_checkintfield.raisesArg hty
    obtain ⟨narg, msg, herr⟩ := hraises
    rw [herr]
    refine .inr ⟨?_, narg, msg, rfl⟩
    rintro ⟨f, hfamily, -⟩
    exact hty hfamily.1

/-- A field is a table. -/
theorem hasType_table_iff {k : String} :
    H.HasType t k "table" ↔ ∃ p, H.get t (fieldName k) = .table p := by
  rw [HasType]
  cases H.get t (fieldName k) <;> simp [LuaValue.typename]

/-- `tomsqid` checks its table and the one in its field `msg_perm`. -/
theorem checks_msqidFields {σ : Type} (S : Messages.System σ) (subindex : Nat) :
    (Messages.msqidFields S H index t subindex).Checks (msqid.Accepts H t ∧
      ∃ p, H.get t (fieldName "msg_perm") = .table p ∧ ipcperm.Accepts H p) := by
  have hperm : (∃ p, H.get t (fieldName "msg_perm") = .table p ∧
      (∀ key ∈ H.tables t, Listed Messages.Smsqid_fields key) ∧ ipcperm.Accepts H p) ∧
        H.HasType t "msg_qbytes" "number" ↔ msqid.Accepts H t ∧
      ∃ p, H.get t (fieldName "msg_perm") = .table p ∧ ipcperm.Accepts H p := by
    simp only [Fields.Accepts, Fields.Typed, msqid, List.forall_mem_cons, List.not_mem_nil,
      false_implies, implies_true, and_true, hasType_table_iff]
    constructor
    · rintro ⟨⟨p, hp, hnames, haccepts⟩, hqbytes⟩
      exact ⟨⟨⟨hqbytes, p, hp⟩, hnames⟩, p, hp, haccepts⟩
    · rintro ⟨⟨⟨hqbytes, -⟩, hnames⟩, p, hp, haccepts⟩
      exact ⟨⟨p, hp, hnames, haccepts⟩, hqbytes⟩
  rw [Messages.msqidFields]
  refine (checks_checkintegerfield.bind fun msg_qbytes => ?_).congr (and_comm.trans hperm)
  -- Both tables are read before the names of either are checked.
  by_cases hty : H.HasType t "msg_perm" "table"
  · obtain ⟨p, hp⟩ := hasType_table_iff.mp hty
    rw [checkfieldtype_of_hasType hty, hp]
    refine (checks_checkintegerfield.bind fun uid => checks_checkintegerfield.bind fun gid =>
      checks_checkintfield.bind fun mode => (checks_checkfieldnames names_msqid).bind fun _ =>
      (checks_checkfieldnames names_ipcperm).bind fun _ => checks_ok _).congr ?_
    simp only [Fields.Accepts, Fields.Typed, ipcperm, msqid, List.forall_mem_cons,
      List.not_mem_nil, false_implies, implies_true, and_true, LuaValue.table.injEq,
      exists_eq_left']
    constructor
    · rintro ⟨huid, hgid, hmode, hnames, hperm⟩
      exact ⟨hnames, ⟨huid, hgid, hmode⟩, hperm⟩
    · rintro ⟨hnames, ⟨huid, hgid, hmode⟩, hperm⟩
      exact ⟨huid, hgid, hmode, hnames, hperm⟩
  · have hraises : (H.checkfieldtype index t "msg_perm" "table" (some "table")).RaisesArg :=
      checks_checkfieldtype.raisesArg hty
    obtain ⟨narg, msg, h⟩ := hraises
    rw [h]
    refine .inr ⟨?_, narg, msg, rfl⟩
    rintro ⟨p, hp, -⟩
    exact hty (hasType_table_iff.mpr ⟨p, hp⟩)

end Converters

/-! ## The bindings -/

/-- The bindings that take a table of fields. -/
inductive Binding where
  | connect
  | bind
  | sendto
  | getaddrinfo
  | nanosleep
  | mktime
  | strftime
  | tcsetwinsize
  | setrlimit
  | msgctl
  deriving DecidableEq, Repr

/-- The place of the table among the arguments. -/
def Binding.index : Binding → Nat
  | .nanosleep | .mktime => 1
  | .connect | .bind | .strftime | .tcsetwinsize | .setrlimit => 2
  | .sendto | .getaddrinfo | .msgctl => 3

/-- What the rest of the system answers. -/
structure System (σ : Type) where
  sockets : Sockets.System σ
  time : Time.System σ
  termio : Termio.System σ
  resource : Resource.System σ
  messages : Messages.System σ

/-- Something holds of the tables that a binding reads, each of its kind. -/
def Binding.Each (ws : Fields) (P : Fields → Nat → Prop) (H : Heap) (t : Nat) : Binding → Prop
  | .connect | .bind | .sendto => ∃ f, HasFamily H t f ∧ P (sockaddr f) t
  | .getaddrinfo => P hints t
  | .nanosleep => P timespec t
  | .mktime | .strftime => P tm t
  | .tcsetwinsize => P ws t
  | .setrlimit => P rlimit t
  | .msgctl => P msqid t ∧ ∃ p, H.get t (fieldName "msg_perm") = .table p ∧ P ipcperm p

/-- One of the tables that a binding reads has a key that is not a name, whatever follows a zero
in it. An address without a family has no names at all. -/
def Binding.Unknown (H : Heap) (t : Nat) : Binding → Prop
  | .connect | .bind | .sendto => ∀ f, HasFamily H t f → (sockaddr f).Unknown H t
  | .getaddrinfo => hints.Unknown H t
  | .nanosleep => timespec.Unknown H t
  | .mktime | .strftime => tm.Unknown H t
  | .tcsetwinsize => winsize.Unknown H t
  | .setrlimit => rlimit.Unknown H t
  | .msgctl => msqid.Unknown H t ∨
      ∃ p, H.get t (fieldName "msg_perm") = .table p ∧ ipcperm.Unknown H p

/-- A table as the binding wants it, with no other keys. -/
def Binding.Proper (b : Binding) (H : Heap) (t : Nat) : Prop :=
  b.Each winsize (fun F p => F.Proper H p) H t

/-- A table that the binding accepts, in a build with the fields in pixels or without. -/
def Binding.Accepts (pixels : Bool) (b : Binding) (H : Heap) (t : Nat) : Prop :=
  b.Each (winsizeChecked pixels) (fun F p => F.Accepts H p) H t

section Bindings

variable {σ : Type} (S : System σ) (args : List LuaValue)

/-- The checks of the fields. -/
def Binding.convert (H : Heap) : Binding → CallM Unit
  | .connect | .bind => (fun _ => ()) <$>
      Sockets.sockaddr_from_lua S.sockets.num S.sockets.presentation H 2 args
  | .sendto => (fun _ => ()) <$>
      Sockets.sockaddr_from_lua S.sockets.num S.sockets.presentation H 3 args
  | .getaddrinfo => (fun _ => ()) <$> Sockets.hintsArgument S.sockets args H
  | .nanosleep => (fun _ => ()) <$> Time.totimespec S.time.num args 1 H
  | .mktime => (fun _ => ()) <$> Time.totm S.time.num args 1 H
  | .strftime => (fun _ => ()) <$> Time.totm S.time.num args 2 H
  | .tcsetwinsize => (fun _ => ()) <$> Termio.towinsize S.termio args 2 H
  | .setrlimit => do
      let t ← checktable args 2
      (fun _ => ()) <$> Resource.rlimitFields S.resource.num H t
  | .msgctl => (fun _ => ()) <$> Messages.tomsqid S.messages args 3 H

variable {S args} {H : Heap} {t : Nat} {b : Binding}

/-- A table as it should be is accepted. -/
theorem Binding.Proper.accepts {pixels : Bool} (h : b.Proper H t) : b.Accepts pixels H t := by
  have hfamily : (∃ f, HasFamily H t f ∧ (sockaddr f).Proper H t) →
      ∃ f, HasFamily H t f ∧ (sockaddr f).Accepts H t := by
    rintro ⟨f, hf, hproper⟩
    exact ⟨f, hf, hproper.accepts (names_sockaddr f)⟩
  cases b with
  | connect => exact hfamily h
  | bind => exact hfamily h
  | sendto => exact hfamily h
  | getaddrinfo => exact Fields.Proper.accepts names_hints h
  | nanosleep => exact Fields.Proper.accepts Time.names_Stimespec_fields h
  | mktime => exact Fields.Proper.accepts Time.names_Stm_fields h
  | strftime => exact Fields.Proper.accepts Time.names_Stm_fields h
  | tcsetwinsize => exact winsizeChecked_accepts h
  | setrlimit => exact Fields.Proper.accepts Resource.names_Srlimit_fields h
  | msgctl =>
      obtain ⟨hmsqid, p, hp, hperm⟩ := h
      exact ⟨hmsqid.accepts names_msqid, p, hp, hperm.accepts names_ipcperm⟩

/-- A table with an unknown key is not. -/
theorem Binding.Unknown.not_accepts {pixels : Bool} (h : b.Unknown H t) :
    ¬b.Accepts pixels H t := by
  have hfamily : (∀ f, HasFamily H t f → (sockaddr f).Unknown H t) →
      ¬∃ f, HasFamily H t f ∧ (sockaddr f).Accepts H t := by
    rintro hunknown ⟨f, hf, haccepts⟩
    exact (hunknown f hf).not_accepts haccepts
  cases b with
  | connect => exact hfamily h
  | bind => exact hfamily h
  | sendto => exact hfamily h
  | msgctl =>
      rintro ⟨hmsqid, p, hp, hperm⟩
      rcases h with hunknown | ⟨p', hp', hunknown⟩
      · exact hunknown.not_accepts hmsqid
      · rw [hp, LuaValue.table.injEq] at hp'
        subst hp'
        exact hunknown.not_accepts hperm
  | _ => exact Fields.Unknown.not_accepts h

/-- A table is found where it is an argument. -/
theorem checktable_of_argument {index : Nat} (harg : argument args index = some (.table t)) :
    checktable args index = .ok t := by
  rw [checktable, harg]

/-- **The checks of the fields accept the tables that are accepted**, and raise an argument error
for the others. -/
theorem Binding.checks_convert (b : Binding) (harg : argument args b.index = some (.table t)) :
    (b.convert S args H).Checks (b.Accepts S.termio.pixels H t) := by
  have htable := checktable_of_argument harg
  cases b with
  | connect => exact (checks_sockaddr_from_lua _ harg).map _
  | bind => exact (checks_sockaddr_from_lua _ harg).map _
  | sendto => exact (checks_sockaddr_from_lua _ harg).map _
  | getaddrinfo => exact (checks_hintsArgument S.sockets harg).map _
  | nanosleep =>
      rw [index] at htable
      rw [convert, Time.totimespec, htable]
      exact checks_timespecFields.map _
  | mktime =>
      rw [index] at htable
      rw [convert, Time.totm, htable]
      exact checks_tmFields.map _
  | strftime =>
      rw [index] at htable
      rw [convert, Time.totm, htable]
      exact checks_tmFields.map _
  | tcsetwinsize =>
      rw [index] at htable
      rw [convert, Termio.towinsize, htable]
      exact checks_winsizeFields.map _
  | setrlimit =>
      rw [index] at htable
      rw [convert, htable]
      exact checks_rlimitFields.map _
  | msgctl =>
      rw [index] at htable
      rw [convert, Messages.tomsqid, htable]
      exact (checks_msqidFields S.messages _).map _

variable (S args) (L : Layout fun _ : LuaValue => LuaValue)

/-- The binding raises an argument error before it calls anything. -/
def Binding.Raises (H : Heap) (s : σ) (errno : Int) : Binding → Prop
  | .connect => BindingM.RaisesArg (Sockets.Pconnect S.sockets args) ⟨errno, H, s, []⟩
  | .bind => BindingM.RaisesArg (Sockets.Pbind S.sockets args) ⟨errno, H, s, []⟩
  | .sendto => BindingM.RaisesArg (Sockets.Psendto S.sockets args) ⟨errno, H, s, []⟩
  | .getaddrinfo => BindingM.RaisesArg (Sockets.Pgetaddrinfo S.sockets args L) ⟨errno, H, s, []⟩
  | .nanosleep => BindingM.RaisesArg (Time.Pnanosleep S.time args L) ⟨errno, H, s, []⟩
  | .mktime => BindingM.RaisesArg (Time.Pmktime S.time args) ⟨errno, H, s, []⟩
  | .strftime => BindingM.RaisesArg (Time.Pstrftime S.time args) ⟨errno, H, s, []⟩
  | .tcsetwinsize => BindingM.RaisesArg (Termio.Ptcsetwinsize S.termio args) ⟨errno, H, s, []⟩
  | .setrlimit => BindingM.RaisesArg (Resource.Psetrlimit S.resource args) ⟨errno, H, s, []⟩
  | .msgctl => BindingM.RaisesArg (Messages.Pmsgctl S.messages args L) ⟨errno, H, s, []⟩

/-- The arguments before the table ask for what it is needed for: for `msgctl`, that is
`IPC_SET`. -/
def Binding.Needs : Binding → Prop
  | .msgctl => checkint S.messages.num.strtod args 2 = .ok Messages.Cmd.IPC_SET.value
  | _ => True

variable {S args L}

/-- The service is refused by argument errors only. -/
theorem onlyArg_serviceArgument {σ : Type} (S : Sockets.System σ) {host : Option LStr} :
    BindingM.OnlyArg (Sockets.serviceArgument S args host) := by
  intro e h
  rw [Sockets.serviceArgument] at h
  -- The argument is missing, nil, a text or something else.
  split at h
  · split_ifs at h
    cases h
    exact ⟨_, _, rfl⟩
  · split_ifs at h
    cases h
    exact ⟨_, _, rfl⟩
  · split at h <;> cases h
    exact ⟨_, _, rfl⟩

/-- What is made of a value that is never there makes no difference. -/
theorem raisesArg_of_map {α β : Type} {x : CallM α} {f : α → β} (h : (f <$> x).RaisesArg) :
    x.RaisesArg := by
  obtain ⟨narg, msg, herr⟩ := h
  cases x with
  | ok a => cases herr
  | error e =>
      have he : e = .raises (.argerror narg msg) := Except.error.inj herr
      exact ⟨narg, msg, congrArg _ he⟩

open BindingM in
/-- **Where the checks of the fields fail, nothing is called.** -/
theorem Binding.raises_of_convert (harg : argument args b.index = some (.table t))
    (hneeds : b.Needs S args) (h : (b.convert S args H).RaisesArg) (s : σ) (errno : Int) :
    b.Raises S args L H s errno := by
  -- What comes before the fields either raises an argument error or lets the run go on.
  cases b with
  | connect =>
      exact .lua onlyArg_checkint fun _ _ => .lua (onlyArg_checknargs 2) fun _ _ =>
        .read (raisesArg_of_map h)
  | bind =>
      exact .lua (onlyArg_checknargs 2) fun _ _ => .lua onlyArg_checkint fun _ _ =>
        .read (raisesArg_of_map h)
  | sendto =>
      exact .lua onlyArg_checkint fun _ _ => .lua onlyArg_checklstring fun _ _ =>
        .lua (onlyArg_checknargs 3) fun _ _ => .read (raisesArg_of_map h)
  | getaddrinfo =>
      exact .lua onlyArg_optstring fun _ _ => .lua (onlyArg_checknargs 3) fun _ _ =>
        .lua (onlyArg_serviceArgument S.sockets) fun _ _ => .read (raisesArg_of_map h)
  | nanosleep => exact .read (raisesArg_of_map h)
  | mktime => exact .lua (onlyArg_checknargs 1) fun _ _ => .read (raisesArg_of_map h)
  | strftime => exact .lua onlyArg_checklstring fun _ _ => .read (raisesArg_of_map h)
  | tcsetwinsize => exact .lua onlyArg_checkint fun _ _ => .read (raisesArg_of_map h)
  | setrlimit =>
      have htable := checktable_of_argument harg
      rw [index] at htable
      rw [convert, htable] at h
      refine .lua onlyArg_checkint fun _ _ => .lua onlyArg_checktable fun t' ht' =>
        .lua (onlyArg_checknargs 2) fun _ _ => .read ?_
      rw [← Except.ok.inj (htable.symm.trans ht')]
      exact raisesArg_of_map h
  | msgctl =>
      refine .lua onlyArg_checkint fun _ _ => .lua onlyArg_checkint fun cmd hcmd => ?_
      rw [Except.ok.inj (hcmd.symm.trans hneeds)]
      exact .lua (onlyArg_checknargs 3) fun _ _ => .read (raisesArg_of_map h)

/-- **Tables with unknown fields never reach the system**, and the checks of the fields raise
nothing for a table with the fields that it must and may have and no others. -/
theorem unknown_fields_refused (harg : argument args b.index = some (.table t))
    (hneeds : b.Needs S args) (s : σ) (errno : Int) :
    (b.Unknown H t → b.Raises S args L H s errno) ∧
      (b.Proper H t → (b.convert S args H).Succeeds) := by
  have hchecks := b.checks_convert (S := S) (H := H) harg
  constructor
  · intro hunknown
    exact Binding.raises_of_convert harg hneeds (hchecks.raisesArg hunknown.not_accepts) s errno
  · intro hproper
    exact hchecks.succeeds hproper.accepts

end Bindings

/-! ## Small tables -/

/-- A small instance. -/
def System.small : System Unit where
  sockets := .failing
  time := .newYear
  termio := .noTerminal
  resource := .unlimited
  messages := .quiet

/-- The tables `{[1] = true}`, `{tv_sec = 1}`, `{["tv_sec\0"] = 1}` and `{family = "x"}`. -/
def tables : Heap :=
  let H := Heap.empty.set Heap.newestFirst 0 (.integer 1) (.boolean true)
  let H := H.set Heap.newestFirst 1 (fieldName "tv_sec") (.integer 1)
  let H := H.set Heap.newestFirst 2 (fieldName "tv_sec\u0000") (.integer 1)
  H.set Heap.newestFirst 3 (fieldName "family") (.string ['x'])

/-- A table with `[1] = true` is refused, one with `tv_sec` is not. -/
theorem unknown_fields_refused_nanosleep :
    Binding.nanosleep.Raises System.small [.table 0] Heap.newestFirst tables () 0 ∧
      (Binding.nanosleep.convert System.small [.table 1] tables).Succeeds := by
  constructor
  · refine (unknown_fields_refused (b := .nanosleep) rfl trivial () 0).1
      ⟨.integer 1, by decide, ?_⟩
    rintro ⟨s, h, -⟩
    cases h
  · have hproper : timespec.Proper tables 1 := by decide
    exact (unknown_fields_refused (b := .nanosleep) (L := Heap.newestFirst) rfl trivial () 0).2
      hproper

/-- A key that goes on after a zero reaches the system, and a field that may be missing is refused
where it has another type. -/
theorem zero_in_name :
    (∃ key ∈ tables.tables 2, ¬Known timespec.names key) ∧
    (∃ results w, (Time.Pnanosleep System.small.time [.table 2] Heap.newestFirst).run
      ⟨0, tables, (), []⟩ = .ok results w ∧ w.calls = [.nanosleep ⟨0, 0⟩]) ∧
    (∀ key ∈ tables.tables 3, Known hints.names key) ∧ hints.required = [] ∧
    Binding.getaddrinfo.Raises System.small [.string ['h'], .nil, .table 3] Heap.newestFirst
      tables () 0 := by
  refine ⟨⟨fieldName "tv_sec\u0000", by decide, by decide⟩, ⟨_, _, rfl, rfl⟩, by decide, rfl, ?_⟩
  exact ⟨3, _, rfl⟩

end FieldNames

end LuaPosix
