import PrivChat.Attachments.Access
import PrivChat.Auth.Revocation
import PrivChat.Auth.Sessions
import PrivChat.Call.Outbox
import PrivChat.Call.Poll
import PrivChat.Call.Residue
import PrivChat.Call.TwoSided
import PrivChat.Channels.SendAuthorization
import PrivChat.Connection.Kicks
import PrivChat.Connection.Presence
import PrivChat.Connection.Resurrection
import PrivChat.Dedup.Convergence
import PrivChat.Delivery.CatchUp
import PrivChat.Delivery.Fencing
import PrivChat.EntitySync.Pages
import PrivChat.Friends.Apply
import PrivChat.Friends.CardShare
import PrivChat.Groups.Owner
import PrivChat.Groups.Recipients
import PrivChat.Groups.Rehydration
import PrivChat.Infra.Maps
import PrivChat.QrCodes.Keys
import PrivChat.QrLogin.SingleUse
import PrivChat.Reactions.Log
import PrivChat.ReadState.Batcher
import PrivChat.ReadState.Coverage
import PrivChat.ReadState.Unread
import PrivChat.Revoke.AtMostOnce
import PrivChat.Revoke.Authorization
import PrivChat.Security.ClientState
import PrivChat.Subscriptions.Membership
import PrivChat.Sync.Contiguous
import PrivChat.Timeline.ExactlyOnce
import PrivChat.Timeline.Replay
import PrivChat.Uploads.Assembly
import PrivChat.Uploads.ExactlyOnce
import PrivChat.Uploads.Geometry
import PrivChat.Uploads.Token
