import UbirchClient.Go.Basic
import UbirchClient.Go.Encoding
import UbirchClient.Go.Uuid
import UbirchClient.Go.Utf8
import UbirchClient.Go.Http
import UbirchClient.Json.Number
import UbirchClient.Json.Scanner
import UbirchClient.Json.Accept
import UbirchClient.Json.Str
import UbirchClient.Json.Value
import UbirchClient.Json.Equiv
import UbirchClient.Json.Encode
import UbirchClient.Json.Canonical
import UbirchClient.Json.Typed
import UbirchClient.Json.Marshal
import UbirchClient.Handlers.Httphelper
import UbirchClient.Handlers.Services
import UbirchClient.Handlers.Signer
import UbirchClient.Api.Rest
import UbirchClient.Config.Client
import UbirchClient.Config.Device
import UbirchClient.Main.Entry
import UbirchClient.Protocol.Context
import UbirchClient.Database.Postgres
