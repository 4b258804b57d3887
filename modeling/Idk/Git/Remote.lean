import Idk.Base
import Idk.Logic.Cuts

/-!
# Remote endpoints

What is shown of the endpoints of a remote, and which of them an operation may use
(`git/service.rs`).
-/

namespace Idk.Git

open Idk.Logic

/-- What `redact_endpoint` returns: the text that is shown, whether the endpoint carries
    credentials, and whether its transport is unsupported. -/
structure Endpoint where
  display : String
  credentials : Bool
  unsupported : Bool
deriving DecidableEq, Repr

def unsupportedTransport : Endpoint := ⟨"[unsupported transport]", false, true⟩

def supportedSchemes : List (List Char) :=
  ["http".toList, "https".toList, "ssh".toList, "git".toList, "file".toList]

/-- The user-info of an authority is not shown. -/
def redactAuthority (scheme authority : List Char) : List Char × Bool :=
  match cutLast (· == '@') authority with
  | some (userinfo, host) =>
    ("[redacted]@".toList ++ host, scheme != "ssh".toList || userinfo.contains ':')
  | none => (authority, false)

/-- What is shown of an endpoint with a supported scheme; `rest` stands behind `://`. -/
def redactUrl (scheme rest : List Char) : Endpoint :=
  let cut := cutFirst (fun char => char == '?' || char == '#') rest
  let rest := cut.elim rest (·.1)
  let (authority, path) := (cutFirst (· == '/') rest).getD (rest, [])
  let (authority, credentials) := redactAuthority scheme authority
  let slash := if path.isEmpty then [] else ['/']
  let parameters := if cut.isSome then "[redacted parameters]".toList else []
  { display := String.ofList (scheme ++ "://".toList ++ authority ++ slash ++ path ++ parameters)
    credentials := credentials || cut.isSome
    unsupported := false }

/-- `redact_endpoint`. -/
def redactEndpoint (value : String) : Endpoint :=
  match cutAt "://".toList value.toList with
  | some (scheme, rest) =>
    if supportedSchemes.contains scheme then redactUrl scheme rest else unsupportedTransport
  | none =>
    if (cutAt "::".toList value.toList).isSome then unsupportedTransport
    else
      match cutFirst (· == ':') value.toList with
      | some (host, path) =>
        -- a colon before the first slash: an endpoint in the form of `scp`
        if host.contains '/' then ⟨value, false, false⟩
        else
          let host := (cutLast (· == '@') host).elim host fun parts => "[redacted]@".toList ++ parts.2
          ⟨String.ofList (host ++ ':' :: path), false, false⟩
      | none => ⟨value, false, false⟩

/-! ## The endpoints of a remote -/

structure Remote where
  name : String
  fetchUrls : List String
  pushUrls : List String
  embeddedCredentials : Bool
deriving DecidableEq, Repr

structure RemoteState where
  view : Remote
  fetchUnsafe : Bool
  pushUnsafe : Bool
deriving DecidableEq, Repr

/-- `summarize`: what is shown of the endpoints, and whether any of them carries
    credentials or has an unsupported transport. -/
def summarize (values : List String) : List String × Bool × Bool :=
  let endpoints := values.map redactEndpoint
  (endpoints.map (·.display), endpoints.any (·.credentials), endpoints.any (·.unsupported))

/-- The end of `remote_state`, with the endpoints that Git has resolved. -/
def remoteState (name : String) (fetch push : List String) : RemoteState :=
  let (fetchUrls, fetchCredentials, fetchUnsupported) := summarize fetch
  let (pushUrls, pushCredentials, pushUnsupported) := summarize push
  { view := ⟨name, fetchUrls, pushUrls, fetchCredentials || pushCredentials⟩
    fetchUnsafe := fetchCredentials || fetchUnsupported
    pushUnsafe := pushCredentials || pushUnsupported }

/-- `safe_remote`. -/
def safeRemote (state : RemoteState) (push : Bool) : Result Unit :=
  ensure (!(if push then state.pushUnsafe else state.fetchUnsafe))
    ("remote endpoint contains embedded credentials or an unsupported transport; " ++
      "configure a credential helper/agent and a standard endpoint before this operation")

end Idk.Git
