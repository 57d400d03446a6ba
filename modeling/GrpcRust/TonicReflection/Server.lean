import GrpcRust.Lib.HashMap
import GrpcRust.Lib.Panics
import GrpcRust.Lib.Wire
/-!
# The state of the reflection server

`tonic-reflection/src/server/mod.rs`, on a target where `usize` has 64 bits. Of a descriptor only the fields are here
that the server reads: of a field, a oneof, an enum value and a method this is the name.
-/

namespace TonicReflection

open Lib Wire List

inductive Error
  | decodeError (description : String)
  | invalidFileDescriptorSet (message : String)
deriving DecidableEq

inductive Stop
  | failed (error : Error)
  | panicked
deriving DecidableEq

def prost {α : Type} (x : Except String α) : Except Stop α := x.mapError fun e => .failed (.decodeError e)

def invalid {α : Type} (message : String) : Except Stop α := .error (.failed (.invalidFileDescriptorSet message))

/-! ## Splitting a descriptor set -/

/-- `split_at` and slices panic past the end. -/
def splitAt (buf : Bytes) (n : Nat) : Except Stop (Bytes × Bytes) :=
  if n ≤ buf.length then .ok (buf.take n, buf.drop n) else .error .panicked

def truncated {α : Type} : Except Stop α := invalid "unexpected end of FileDescriptorSet buffer"

def skip (buf : Bytes) (n : Nat) : Except Stop (Option Bytes × Bytes) :=
  if buf.length < n then truncated
  else do
    let (_, rest) ← splitAt buf n
    return (none, rest)

variable (reader : Reader)

/-- One turn of the loop: the file that it pushes and the buffer it leaves. -/
def splitTurn (buf : Bytes) : Except Stop (Option Bytes × Bytes) := do
  let ((tag, wireType), buf) ← prost (reader.decodeKey buf)
  match wireType with
  | .lengthDelimited =>
    let (len, buf) ← prost (reader.decodeVarint buf)
    if buf.length < len then truncated
    else
      let (field, rest) ← splitAt buf len
      return (if tag = 1 then some field else none, rest)
  | .varint =>
    let (_, buf) ← prost (reader.decodeVarint buf)
    return (none, buf)
  | .thirtyTwoBit => skip buf 4
  | .sixtyFourBit => skip buf 8
  | .startGroup | .endGroup => invalid "unexpected group wire type in FileDescriptorSet"

variable {reader} {buf rest : Bytes} {n tag : Nat} {field : Field} {α : Type} {Q : α → Prop}

theorem outcome_prost {x : Except String α} (h : ∀ a, x = .ok a → Q a) : Outcome (prost x) Q (· ≠ .panicked) := by
  refine .mapError ⟨h, fun _ _ => ?_⟩
  nofun

theorem outcome_invalid {message : String} : Outcome (invalid message) Q (· ≠ .panicked) := .panic nofun

theorem splitAt_of_not_lt (h : ¬ buf.length < n) : splitAt buf n = .ok (buf.take n, buf.drop n) :=
  if_pos (Nat.not_lt.1 h)

theorem outcome_skip : Outcome (skip buf n) (·.2.length ≤ buf.length) (· ≠ .panicked) := by
  unfold skip
  split_ifs with h
  · exact outcome_invalid
  · rw [splitAt_of_not_lt h]
    exact .ret ((drop_sublist ..).length_le)

/-- No turn panics, and each takes bytes. -/
theorem outcome_splitTurn : Outcome (splitTurn reader buf) (·.2.length < buf.length) (· ≠ .panicked) := by
  refine .bind (M := (·.2.length < buf.length)) (outcome_prost fun _ => reader.decodeKey_shorter) ?_
  rintro ⟨⟨tag, t⟩, buf₁⟩ hlt
  have hskip : ∀ n, Outcome (skip buf₁ n) (·.2.length < buf.length) (· ≠ .panicked) := fun n =>
    outcome_skip.mono (fun _ h => h.trans_lt hlt) fun _ h => h
  have hvarint := outcome_prost fun r (h : reader.decodeVarint buf₁ = .ok r) =>
    (reader.decodeVarint_shorter h).trans hlt
  cases t with
  | lengthDelimited =>
    refine hvarint.bind ?_
    rintro ⟨len, buf₂⟩ hlt₂
    dsimp only
    by_cases h : buf₂.length < len
    · rw [if_pos h]
      exact outcome_invalid
    · rw [if_neg h, splitAt_of_not_lt h]
      exact .ret ((drop_sublist ..).length_le.trans_lt hlt₂)
  | varint => exact hvarint.bind fun _ h => .ret h
  | thirtyTwoBit => exact hskip 4
  | sixtyFourBit => exact hskip 8
  | startGroup => exact outcome_invalid
  | endGroup => exact outcome_invalid

def splitFrom (reader : Reader) (files : List Bytes) (buf : Bytes) : Except Stop (List Bytes) :=
  if buf.isEmpty then .ok files
  else match _h : splitTurn reader buf with
    | .error e => .error e
    | .ok (file, rest) => splitFrom reader (files ++ file.toList) rest
termination_by buf.length
decreasing_by exact outcome_splitTurn.ok _ ‹_›

def splitFileDescriptorSet (reader : Reader) (buf : Bytes) : Except Stop (List Bytes) := splitFrom reader [] buf

theorem splitFrom_ne_panicked (files : List Bytes) (buf : Bytes) : splitFrom reader files buf ≠ .error .panicked := by
  fun_induction splitFrom reader files buf with
  | case1 => nofun
  | case2 files buf hb e h => exact fun he => outcome_splitTurn.error _ h (Except.error.inj he)
  | case3 files buf hb file rest h ih => exact ih

/-- The file that a field of the set is. -/
def fileOf : Nat × Field → Option Bytes
  | (tag, .lengthDelimited bytes) => if tag = 1 then some bytes else none
  | _ => none

theorem splitAt_append (field rest : Bytes) : splitAt (field ++ rest) field.length = .ok (field, rest) := by
  rw [splitAt_of_not_lt (by simp), take_left, drop_left]

theorem skip_append (field rest : Bytes) : skip (field ++ rest) field.length = .ok (none, rest) := by
  rw [skip, if_neg (by simp), splitAt_append]
  rfl

theorem splitTurn_append (h : Encodes tag field buf) :
    splitTurn reader (buf ++ rest) = .ok (fileOf (tag, field), rest) := by
  obtain ⟨hpos, hlt, key, body, rfl, hkey, hbody⟩ := h
  rw [append_assoc, splitTurn, reader.decodeKey_append hpos hlt hkey]
  cases field with
  | varint n =>
    change (prost (reader.decodeVarint _) >>= _) = _
    rw [reader.decodeVarint_append hbody]
    rfl
  | lengthDelimited bytes =>
    obtain ⟨len, hlen, rfl⟩ := hbody
    change (prost (reader.decodeVarint _) >>= _) = _
    rw [append_assoc, reader.decodeVarint_append hlen]
    change ite _ _ (splitAt _ _ >>= _) = _
    rw [if_neg (by simp), splitAt_append]
    rfl
  | sixtyFourBit bytes =>
    obtain ⟨hlen, rfl⟩ := hbody
    exact hlen ▸ skip_append body rest
  | thirtyTwoBit bytes =>
    obtain ⟨hlen, rfl⟩ := hbody
    exact hlen ▸ skip_append body rest

theorem splitFrom_of_splitTurn {files : List Bytes} {file : Option Bytes}
    (h : splitTurn reader buf = .ok (file, rest)) :
    splitFrom reader files buf = splitFrom reader (files ++ file.toList) rest := by
  have hb : ¬ buf.isEmpty := by
    rw [List.isEmpty_iff]
    rintro rfl
    exact absurd (outcome_splitTurn.ok _ h) (Nat.not_lt_zero _)
  rw [splitFrom, if_neg hb]
  split <;> simp_all

theorem splitFrom_flatten {fields : List (Nat × Field)} {chunks : List Bytes} (files : List Bytes)
    (h : Forall₂ (fun f bytes => Encodes f.1 f.2 bytes) fields chunks) :
    splitFrom reader files chunks.flatten = .ok (files ++ fields.filterMap fileOf) := by
  induction h generalizing files with
  | nil => simp [splitFrom]
  | @cons f bytes fields chunks hf _ ih =>
    rw [flatten_cons, splitFrom_of_splitTurn (splitTurn_append hf), ih, append_assoc, filterMap_cons]
    cases fileOf f <;> rfl

/-! ## Registering files -/

inductive Kind
  | service
  | method
  | message
  | enum
  | enumValue
  | field
  | oneof
deriving DecidableEq

def Kind.nameType : Kind → String
  | .service => "service"
  | .method => "method"
  | .message => "message"
  | .enum => "enum"
  | .enumValue => "enum value"
  | .field => "field"
  | .oneof => "oneof"

structure EnumDescriptorProto where
  name : Option String
  value : List (Option String)

structure ServiceDescriptorProto where
  name : Option String
  method : List (Option String)

structure DescriptorProto where
  name : Option String
  nestedType : List DescriptorProto
  enumType : List EnumDescriptorProto
  field : List (Option String)
  oneofDecl : List (Option String)

structure FileDescriptorProto where
  name : Option String
  package : Option String
  messageType : List DescriptorProto
  enumType : List EnumDescriptorProto
  service : List ServiceDescriptorProto

/-- A `FileDescriptorProto` of `prost` has more fields than the server reads. -/
structure Codec (M : Type) where
  reader : Reader
  decode : Bytes → Except String M
  encodeToVec : M → Bytes
  fields : M → FileDescriptorProto

structure ReflectionServiceState where
  serviceNames : List String
  files : HashMap String Bytes
  symbols : HashMap String Bytes

def qualified (scope name : String) : String := if scope.isEmpty then name else s!"{scope}.{name}"

def extractName (scope : String) (kind : Kind) : Option String → Except Stop String
  | none => invalid s!"missing {kind.nameType} name"
  | some name => .ok (qualified scope name)

variable {M : Type} (codec : Codec M)

abbrev Processed := Except Stop ReflectionServiceState

namespace ReflectionServiceState
variable (raw : Bytes) (scope : String) (kind : Kind) (useAllServiceNames : Bool) (state : ReflectionServiceState)

def insertSymbol (name : String) : ReflectionServiceState := { state with symbols := state.symbols.insert name raw }

def processNamed (name : Option String) : Processed := do
  let name ← extractName scope kind name
  return state.insertSymbol raw name

def processField := processNamed raw scope .field

def processEnum (en : EnumDescriptorProto) : Processed := do
  let enumName ← extractName scope .enum en.name
  en.value.foldlM (processNamed raw enumName .enumValue) (state.insertSymbol raw enumName)

mutual

def processMessage (scope : String) (state : ReflectionServiceState) : DescriptorProto → Processed
  | ⟨name, nestedType, enumType, field, oneofDecl⟩ => do
    let messageName ← extractName scope .message name
    let state ← processMessages messageName (state.insertSymbol raw messageName) nestedType
    let state ← enumType.foldlM (processEnum raw messageName) state
    let state ← field.foldlM (processField raw messageName) state
    oneofDecl.foldlM (processNamed raw messageName .oneof) state

def processMessages (scope : String) (state : ReflectionServiceState) : List DescriptorProto → Processed
  | [] => .ok state
  | msg :: msgs => do
    let state ← processMessage scope state msg
    processMessages scope state msgs

end

def processService (service : ServiceDescriptorProto) : Processed := do
  let serviceName ← extractName scope .service service.name
  let state := if useAllServiceNames then { state with serviceNames := state.serviceNames ++ [serviceName] } else state
  service.method.foldlM (processNamed raw serviceName .method) (state.insertSymbol raw serviceName)

def processFile (fd : FileDescriptorProto) : Processed := do
  let scope := fd.package.getD ""
  let state ← processMessages raw scope state fd.messageType
  let state ← fd.enumType.foldlM (processEnum raw scope) state
  fd.service.foldlM (processService raw scope useAllServiceNames) state

def registerFile (fd : FileDescriptorProto) : Processed :=
  match fd.name with
  | none => invalid "missing name"
  | some name =>
    if name ∈ state.files then .ok state
    else processFile raw useAllServiceNames { state with files := state.files.insert name raw } fd

def registerEncoded (encoded : Bytes) : Processed := do
  let files ← splitFileDescriptorSet codec.reader encoded
  files.foldlM (fun state raw => do
    let fd ← prost (codec.decode raw)
    registerFile raw useAllServiceNames state (codec.fields fd)) state

def registerDecoded (fds : List M) : Processed :=
  fds.foldlM (fun state fd => registerFile (codec.encodeToVec fd) useAllServiceNames state (codec.fields fd)) state

def new (serviceNames : List String) (encoded : List Bytes) (decoded : List (List M)) : Processed := do
  let state ← encoded.foldlM (registerEncoded codec useAllServiceNames) ⟨serviceNames, ∅, ∅⟩
  decoded.foldlM (registerDecoded codec useAllServiceNames) state

/-- The text is that of a status `not_found`. -/
def symbolByName (symbol : String) : Except String Bytes :=
  match state.symbols.lookup symbol with
  | none => .error s!"symbol '{symbol}' not found"
  | some raw => .ok raw

def fileByFilename (filename : String) : Except String Bytes :=
  match state.files.lookup filename with
  | none => .error s!"file '{filename}' not found"
  | some raw => .ok raw

end ReflectionServiceState

/-! ## What a file declares -/

abbrev Symbols := List (Kind × String)

def named (kind : Kind) (scope : String) (name : Option String) : Symbols :=
  (name.map fun name => (kind, qualified scope name)).toList

/-- A name with what is declared in its scope. -/
def declared (kind : Kind) (scope : String) (name : Option String) (inside : String → Symbols) : Symbols :=
  name.elim [] fun name => (kind, qualified scope name) :: inside (qualified scope name)

def EnumDescriptorProto.symbols (scope : String) (en : EnumDescriptorProto) : Symbols :=
  declared .enum scope en.name fun scope => en.value.flatMap (named .enumValue scope)

def ServiceDescriptorProto.symbols (scope : String) (service : ServiceDescriptorProto) : Symbols :=
  declared .service scope service.name fun scope => service.method.flatMap (named .method scope)

mutual

def DescriptorProto.symbols (scope : String) : DescriptorProto → Symbols
  | ⟨name, nestedType, enumType, field, oneofDecl⟩ =>
    declared .message scope name fun scope => messageSymbols scope nestedType ++ enumType.flatMap (·.symbols scope) ++
      field.flatMap (named .field scope) ++ oneofDecl.flatMap (named .oneof scope)

def messageSymbols (scope : String) : List DescriptorProto → Symbols
  | [] => []
  | msg :: msgs => msg.symbols scope ++ messageSymbols scope msgs

end

def FileDescriptorProto.symbols (fd : FileDescriptorProto) : Symbols :=
  let scope := fd.package.getD ""
  messageSymbols scope fd.messageType ++ fd.enumType.flatMap (·.symbols scope) ++ fd.service.flatMap (·.symbols scope)

def encodedFiles (set : Bytes) : List (FileDescriptorProto × Bytes) :=
  ((splitFileDescriptorSet codec.reader set).toOption.getD []).flatMap fun raw =>
    (codec.decode raw).toOption.toList.map fun fd => (codec.fields fd, raw)

/-- All files in the order of their registration. -/
def registrations (encoded : List Bytes) (decoded : List (List M)) : List (FileDescriptorProto × Bytes) :=
  encoded.flatMap (encodedFiles codec) ++ decoded.flatMap (·.map fun fd => (codec.fields fd, codec.encodeToVec fd))

def first (files : List (FileDescriptorProto × Bytes)) (name : String) : Option (FileDescriptorProto × Bytes) :=
  files.find? (·.1.name = some name)

/-! ## The tables after any registrations -/

namespace ReflectionServiceState

/-- The state after the symbols `done` of the bytes `raw`. -/
structure Added (s₀ : ReflectionServiceState) (raw : Bytes) (done : Symbols) (s : ReflectionServiceState) : Prop where
  files : s.files = s₀.files
  symbols : s.symbols = done.foldl (fun symbols x => symbols.insert x.2 raw) s₀.symbols

variable {s₀ s s' : ReflectionServiceState} {raw : Bytes} {scope : String} {done : Symbols}
  {kind : Kind} {name : Option String} {useAll : Bool} {fd : FileDescriptorProto}

theorem Added.insertSymbol (h : Added s₀ raw done s) (kind : Kind) (x : String) :
    Added s₀ raw (done ++ [(kind, x)]) (s.insertSymbol raw x) :=
  ⟨h.files, by rw [foldl_append, ← h.symbols]; rfl⟩

theorem extractName_ok {x : String} (h : extractName scope kind name = .ok x) :
    ∃ n, name = some n ∧ qualified scope n = x := by
  cases name with
  | none => cases h
  | some n => exact ⟨n, rfl, Except.ok.inj h⟩

theorem added_processNamed (h : Added s₀ raw done s) (hs : processNamed raw scope kind s name = .ok s') :
    Added s₀ raw (done ++ named kind scope name) s' := by
  obtain ⟨x, hx, hs⟩ := bind_eq_ok.1 hs
  obtain ⟨n, rfl, rfl⟩ := extractName_ok hx
  cases hs
  exact h.insertSymbol kind _

theorem added_members (h : Added s₀ raw done s) {members : List (Option String)}
    (hs : members.foldlM (processNamed raw scope kind) s = .ok s') :
    Added s₀ raw (done ++ members.flatMap (named kind scope)) s' :=
  foldlM_holds (R := Added s₀ raw) h hs added_processNamed

/-- A name is followed by what is declared in its scope. -/
theorem added_declared {inside : String → Symbols} {f : String → Processed}
    (h : ∀ x, f x = .ok s' → Added s₀ raw (done ++ [(kind, x)] ++ inside x) s')
    (hs : (extractName scope kind name >>= f) = .ok s') :
    Added s₀ raw (done ++ declared kind scope name inside) s' := by
  obtain ⟨x, hx, hs⟩ := bind_eq_ok.1 hs
  obtain ⟨n, rfl, rfl⟩ := extractName_ok hx
  have := h _ hs
  rwa [append_assoc] at this

theorem added_processEnum {en : EnumDescriptorProto} (h : Added s₀ raw done s)
    (hs : processEnum raw scope s en = .ok s') : Added s₀ raw (done ++ en.symbols scope) s' :=
  added_declared (fun x hs => added_members (h.insertSymbol .enum x) hs) hs

theorem added_enums {enums : List EnumDescriptorProto} (h : Added s₀ raw done s)
    (hs : enums.foldlM (processEnum raw scope) s = .ok s') :
    Added s₀ raw (done ++ enums.flatMap (·.symbols scope)) s' :=
  foldlM_holds (R := Added s₀ raw) h hs added_processEnum

theorem added_processService {service : ServiceDescriptorProto} (h : Added s₀ raw done s)
    (hs : processService raw scope useAll s service = .ok s') : Added s₀ raw (done ++ service.symbols scope) s' := by
  refine added_declared (fun x hs => added_members (Added.insertSymbol ?_ .service x) hs) hs
  split
  · exact ⟨h.files, h.symbols⟩
  · exact h

mutual

theorem added_processMessage {scope : String} {done : Symbols} {s s'} (h : Added s₀ raw done s) :
    ∀ {msg}, processMessage raw scope s msg = .ok s' → Added s₀ raw (done ++ msg.symbols scope) s'
  | ⟨name, nestedType, enumType, field, oneofDecl⟩, hs => by
    rw [processMessage] at hs
    rw [DescriptorProto.symbols]
    refine added_declared (fun x hs => ?_) hs
    obtain ⟨s₁, h₁, hs⟩ := bind_eq_ok.1 hs
    obtain ⟨s₂, h₂, hs⟩ := bind_eq_ok.1 hs
    obtain ⟨s₃, h₃, hs⟩ := bind_eq_ok.1 hs
    have h := added_enums (added_processMessages (h.insertSymbol .message x) h₁) h₂
    have h := added_members (added_members h h₃) hs
    simpa only [append_assoc] using h

theorem added_processMessages {scope : String} {done : Symbols} {s s'} (h : Added s₀ raw done s) :
    ∀ {msgs}, processMessages raw scope s msgs = .ok s' → Added s₀ raw (done ++ messageSymbols scope msgs) s'
  | [], hs => by
    cases hs
    rwa [messageSymbols, append_nil]
  | msg :: msgs, hs => by
    obtain ⟨s₁, h₁, hs⟩ := bind_eq_ok.1 hs
    rw [messageSymbols, ← append_assoc]
    exact added_processMessages (added_processMessage h h₁) hs

end

theorem added_processFile (hs : processFile raw useAll s fd = .ok s') : Added s raw fd.symbols s' := by
  obtain ⟨s₁, h₁, hs⟩ := bind_eq_ok.1 hs
  obtain ⟨s₂, h₂, hs⟩ := bind_eq_ok.1 hs
  have h₀ : Added s raw [] s := ⟨rfl, rfl⟩
  have h := added_enums (added_processMessages h₀ h₁) h₂
  exact foldlM_holds (R := Added s raw) h hs added_processService

theorem lookup_foldl_insert (m : HashMap String Bytes) (x : String) :
    (done.foldl (fun m x => m.insert x.2 raw) m).lookup x =
    if x ∈ done.map (·.2) then some raw else m.lookup x := by
  induction done generalizing m with
  | nil => rfl
  | cons y done ih =>
    simp only [foldl_cons, ih, HashMap.lookup_insert_ite, map_cons, mem_cons]
    grind

/-- The state after the registrations `regs`. -/
structure Holds (regs : List (FileDescriptorProto × Bytes)) (s : ReflectionServiceState) : Prop where
  files : ∀ name, s.files.lookup name = (first regs name).map (·.2)
  defined : ∀ x raw, s.symbols.lookup x = some raw → ∃ name fd, first regs name = some (fd, raw) ∧
      x ∈ fd.symbols.map (·.2)
  resolved : ∀ name fd raw, first regs name = some (fd, raw) → ∀ x ∈ fd.symbols.map (·.2), (s.symbols.lookup x).isSome

variable {regs : List (FileDescriptorProto × Bytes)}

theorem Holds.registerFile (h : Holds regs s) (hs : registerFile raw useAll s fd = .ok s') :
    Holds (regs ++ [(fd, raw)]) s' := by
  unfold ReflectionServiceState.registerFile at hs
  split at hs
  · cases hs
  · rename_i name hname
    have hfirst : ∀ n, first (regs ++ [(fd, raw)]) n =
      (first regs n).or (if n = name then some (fd, raw) else none) := by
      intro n
      simp [first, find?_append, find?_singleton, hname, eq_comm]
    have hmem : name ∈ s.files ↔ (first regs name).isSome := by rw [← AList.lookup_isSome, h.files, Option.isSome_map]
    split_ifs at hs with hc
    · cases hs
      have : first (regs ++ [(fd, raw)]) = first regs := by
        funext n
        rw [hfirst]
        obtain ⟨f, hf⟩ := Option.isSome_iff_exists.1 (hmem.1 hc)
        grind
      exact ⟨this ▸ h.files, this ▸ h.defined, this ▸ h.resolved⟩
    · obtain ⟨hf, hsym⟩ := added_processFile hs
      have hnone : first regs name = none := by simpa [hmem] using hc
      have hlookup : ∀ x, s'.symbols.lookup x = if x ∈ fd.symbols.map (·.2) then some raw else s.symbols.lookup x :=
        fun x => hsym ▸ lookup_foldl_insert _ x
      refine ⟨fun n => ?_, fun x r hx => ?_, fun n fd' r hr x hx => ?_⟩
      · rw [hf, HashMap.lookup_insert_ite, h.files, hfirst]
        grind
      · rw [hlookup] at hx
        split_ifs at hx with hd
        · exact ⟨name, fd, by grind, hd⟩
        · obtain ⟨n, fd', hn', hd'⟩ := h.defined x r hx
          exact ⟨n, fd', by grind, hd'⟩
      · rw [hlookup]
        split_ifs with hd
        · rfl
        · have := h.resolved n fd' r
          grind

variable {codec}

theorem Holds.registerEncoded {set : Bytes} (h : Holds regs s) (hs : registerEncoded codec useAll s set = .ok s') :
    Holds (regs ++ encodedFiles codec set) s' := by
  obtain ⟨raws, hr, hs⟩ := bind_eq_ok.1 hs
  rw [encodedFiles, hr]
  refine foldlM_holds h hs fun {raw _ _ _} h hs => ?_
  obtain ⟨fd, hfd, hs⟩ := bind_eq_ok.1 hs
  rw [mapError_eq_ok.1 hfd]
  exact h.registerFile hs

theorem Holds.registerDecoded {fds : List M} (h : Holds regs s) (hs : registerDecoded codec useAll s fds = .ok s') :
    Holds (regs ++ fds.map fun fd => (codec.fields fd, codec.encodeToVec fd)) s' := by
  rw [map_eq_flatMap]
  exact foldlM_holds h hs Holds.registerFile

theorem holds_new {serviceNames : List String} {encoded : List Bytes} {decoded : List (List M)}
    (hs : new codec useAll serviceNames encoded decoded = .ok s) : Holds (registrations codec encoded decoded) s := by
  obtain ⟨s₁, h₁, hs⟩ := bind_eq_ok.1 hs
  have h₀ : Holds [] ⟨serviceNames, ∅, ∅⟩ := ⟨fun _ => rfl, nofun, nofun⟩
  exact foldlM_holds (foldlM_holds h₀ h₁ Holds.registerEncoded) hs Holds.registerDecoded

end ReflectionServiceState

open ReflectionServiceState

/-- No input makes the splitting panic, and it returns the files of a well formed set. A file is found by its name with
the bytes of its first registration. Each name that a file declares resolves to the bytes of such a file, which
declares the name as well, but perhaps as that of an enum value. -/
theorem files_and_symbols : (∀ buf, splitFileDescriptorSet codec.reader buf ≠ .error .panicked) ∧
    (∀ fields chunks, Forall₂ (fun f bytes => Encodes f.1 f.2 bytes) fields chunks →
      splitFileDescriptorSet codec.reader chunks.flatten = .ok (fields.filterMap fileOf)) ∧
    ∀ useAll serviceNames encoded decoded state, new codec useAll serviceNames encoded decoded = .ok state →
      let regs := registrations codec encoded decoded
      (∀ name, (state.fileByFilename name).toOption = (first regs name).map (·.2)) ∧
      ∀ name fd raw, first regs name = some (fd, raw) → ∀ kind x, (kind, x) ∈ fd.symbols →
        ∃ name' fd' raw', first regs name' = some (fd', raw') ∧ state.symbolByName x = .ok raw' ∧
          ∃ kind', (kind', x) ∈ fd'.symbols := by
  refine ⟨splitFrom_ne_panicked [], fun _ _ h => splitFrom_flatten [] h,
    fun useAll serviceNames encoded decoded state hs => ?_⟩
  have h := holds_new hs
  refine ⟨fun name => ?_, fun name fd raw hf kind x hx => ?_⟩
  · rw [← h.files, fileByFilename]
    cases state.files.lookup name <;> rfl
  · obtain ⟨r, hr⟩ := Option.isSome_iff_exists.1 (h.resolved name fd raw hf x (mem_map_of_mem hx))
    obtain ⟨name', fd', hf', hx'⟩ := h.defined x r hr
    obtain ⟨⟨kind', _⟩, hk, rfl⟩ := mem_map.1 hx'
    exact ⟨name', fd', r, hf', by rw [symbolByName, hr], kind', hk⟩

def messageFile (message : String) : FileDescriptorProto :=
  ⟨some "c.proto", some "a.b", [⟨some message, [], [], [], []⟩], [], []⟩

def enumFile : FileDescriptorProto := ⟨some "b.proto", some "a", [], [⟨some "b", [some "C"]⟩], []⟩

/-- The encoding of `messageFile`, for a name of one byte. -/
def messageBytes (message : String) : Bytes :=
  [10, 7] ++ Bytes.utf8 "c.proto" ++ [18, 3] ++ Bytes.utf8 "a.b" ++ [34, 3, 10, 1] ++ Bytes.utf8 message

def enumBytes : Bytes := [10, 7] ++ Bytes.utf8 "b.proto" ++ [18, 1, 97, 42, 8, 10, 1, 98, 18, 3, 10, 1, 67]

/-- The value `C` of the enum `a.b` takes the place of the message `C` of the package `a.b`, and a second file
of a name is not read. -/
theorem symbol_of_other_file :
    let encode (fd : FileDescriptorProto) : Bytes :=
      if fd.package = some "a" then enumBytes else messageBytes ((fd.messageType.head?.bind (·.name)).getD "")
    let sets := [[messageFile "C", enumFile, messageFile "D"]]
    ((new ⟨Wire.reader, fun _ => .error "", encode, id⟩ true [] [] sets).toOption.map fun state =>
      (state.symbolByName "a.b.C", state.symbolByName "a.b.D")) =
        some (.ok enumBytes, .error "symbol 'a.b.D' not found") ∧
    encode enumFile = enumBytes ∧ (messageFile "C").symbols = [(.message, "a.b.C")] ∧
    (messageFile "D").symbols = [(.message, "a.b.D")] ∧ enumFile.symbols = [(.enum, "a.b"), (.enumValue, "a.b.C")] :=
  ⟨rfl, rfl, rfl, rfl, rfl⟩

end TonicReflection
