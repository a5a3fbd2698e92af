import TodoRust.App.State
import TodoRust.I18n.Negotiate

/-!
# The i18n middleware

The middleware reads two cookies and the `Accept-Language` header, and leaves a
locale and a time zone on the request.
-/

namespace TodoRust.Middleware
open Rust I18n App

/-- One part of a `Cookie` line, on top of what the parts before it held. -/
def readChunk (found : Option String × Option String) (chunk : List Char) :
    Option String × Option String :=
  let chunk := trimChars chunk
  match "locale=".toList.isPrefixOf? chunk with
  | some rest => (some (String.ofList rest), found.2)
  | none =>
      match "tz=".toList.isPrefixOf? chunk with
      | some rest => (found.1, some (String.ofList rest))
      | none => found

def readCookies (headers : HeaderMap) : Option String × Option String :=
  match (headers.get "cookie").bind HeaderValue.toStr with
  | some cookieHdr => (split cookieHdr.toList ';').foldl readChunk (none, none)
  | none => (none, none)

/-- `i18n_middleware`, with the nonce of the middleware before it. -/
def i18nMiddleware (state : AppState) (fluent : FluentLangneg) (headers : HeaderMap)
    (cspNonce : String) : RequestContext :=
  let (localeStr, tzStr) := readCookies headers
  { locale := negotiate state.parseLanguage fluent
      ((headers.get "accept-language").bind HeaderValue.toStr) localeStr none
    tz := (tzStr.bind (parseTz state.zonesByName)).getD utc
    cspNonce }

end TodoRust.Middleware
